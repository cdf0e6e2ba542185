import RecordStore.Proofs.CheckedOperations
import RecordStore.Proofs.FileSessions

/-!
# Cutting a range at page boundaries

The pieces of a range are cut off one after the other, with the checks that machine words ask for (`Span.cutFirst`).
In a storage of less than 2^32 pages no check fails, and the cutting comes to an end with the pieces that an access is
made of (`cuts_spans`).  What holds of them is read off a single cut (`Span.cutFirst_eq_some`) and carried along the
cuts by induction: they lie in one page each, follow one another, and come from consecutive pages.
-/

namespace RecordStore

open RangeFault

variable {pageSize stop position next : Nat} {span : Span} {pieces : List Span}

/-- The piece of `[position, stop)` in the page that holds `position`, and where the next one starts; none at the end.
The number of the page has to fit 32 bits and every other number 64, and no difference may be negative. -/
def Span.cutFirst (pageSize stop position : Nat) : Except RangeFault (Option (Span × Nat)) := do
  if stop ≤ position then return none
  else
    let page ← narrow (position / pageSize) 32
    let pageStart ← narrow (PageNumber.start page pageSize) 64
    let before ← subtract position pageStart
    let start ← narrow before 64
    let room ← subtract pageSize start
    let ahead ← subtract stop position
    let left ← narrow ahead 64
    let length := min room left
    let next ← narrow (position + length) 64
    return some ({ page, start, length }, next)

/-- The pieces that are cut off from `position` on until nothing is left. -/
inductive Cuts (pageSize stop : Nat) : Nat → List Span → Prop
  | done {position : Nat} (hdone : Span.cutFirst pageSize stop position = .ok none) : Cuts pageSize stop position []
  | cut {position next : Nat} {span : Span} {rest : List Span}
      (hcut : Span.cutFirst pageSize stop position = .ok (some (span, next))) (hrest : Cuts pageSize stop next rest) :
      Cuts pageSize stop position (span :: rest)

/-! ### One cut -/

/-- The piece starts at `position` and lies in one page; it ends with the page, or with the range. -/
structure Span.Opens (span : Span) (pageSize stop position : Nat) : Prop where
  pos : 0 < span.length
  inPage : span.start + span.length ≤ pageSize
  place : PageNumber.start span.page pageSize + span.start = position
  fits : position + span.length ≤ stop
  full : position + span.length < stop → span.start + span.length = pageSize

theorem Span.cutFirst_of_le (h : stop ≤ position) : cutFirst pageSize stop position = .ok none := if_pos h

section

variable (hpos : 0 < pageSize) (hpages : stop ≤ 2 ^ 32 * pageSize) (hword : stop < 2 ^ 64)

include hpos hpages hword

/-- Where page numbers have 32 bits and positions 64, a piece is cut off. -/
theorem Span.cutFirst_of_lt (h : position < stop) : cutFirst pageSize stop position =
    .ok (some ({ page := position / pageSize, start := position % pageSize,
                 length := min (pageSize - position % pageSize) (stop - position) },
      position + min (pageSize - position % pageSize) (stop - position))) := by
  have hdiv := Nat.div_add_mod' position pageSize
  have hmod := Nat.mod_lt position hpos
  have hpage : position / pageSize < 2 ^ 32 := by
    apply Nat.div_lt_of_lt_mul
    rw [Nat.mul_comm]
    exact Nat.lt_of_lt_of_le h hpages
  have hbefore : position - position / pageSize * pageSize = position % pageSize := by omega
  unfold cutFirst PageNumber.start
  simp (disch := omega) only [Nat.not_le.2 h, if_false, narrow_of_lt, subtract_of_le, hbefore, Bind.bind, Except.bind]
  rfl

theorem Span.cutFirst_eq_some (hcut : cutFirst pageSize stop position = .ok (some (span, next))) :
    span.Opens pageSize stop position ∧ next = position + span.length := by
  by_cases h : stop ≤ position
  · rw [cutFirst_of_le h] at hcut
    cases hcut
  · have hmod := Nat.mod_lt position hpos
    rw [cutFirst_of_lt hpos hpages hword (Nat.not_le.1 h)] at hcut
    cases hcut
    refine ⟨⟨?_, ?_, Nat.div_add_mod' position pageSize, ?_, ?_⟩, rfl⟩ <;> dsimp only <;> omega

/-! ### All cuts -/

/-- The cutting comes to an end, and no check fails on the way. -/
theorem cuts_spans (h : position ≤ stop) : Cuts pageSize stop position (spans pageSize position stop) := by
  refine spans_induction hpos hpages (.done (Span.cutFirst_of_le (Nat.le_refl stop))) ?_ h
  rintro position ⟨page, start, length⟩ rest hlt hpage hstart hlength hle hfull hrest
  dsimp only at hpage hstart hlength hle hfull hrest
  have hmod := Nat.mod_lt position hpos
  have hmin : length = min (pageSize - position % pageSize) (stop - position) := by omega
  subst hpage hstart hmin
  exact .cut (Span.cutFirst_of_lt hpos hpages hword hlt) hrest

namespace Cuts

theorem opens (h : Cuts pageSize stop position pieces) {before after : List Span}
    (hpieces : pieces = before ++ span :: after) :
    span.Opens pageSize stop (position + (before.map Span.length).sum) := by
  induction h generalizing before with
  | done => simp at hpieces
  | @cut position next first rest hcut _ ih =>
    obtain ⟨hopens, rfl⟩ := Span.cutFirst_eq_some hpos hpages hword hcut
    cases before with
    | nil =>
      obtain ⟨rfl, -⟩ := List.cons.inj hpieces
      exact hopens
    | cons piece before =>
      obtain ⟨rfl, hrest⟩ := List.cons.inj hpieces
      rw [List.map_cons, List.sum_cons, ← Nat.add_assoc]
      exact ih hrest

theorem sum_length (h : Cuts pageSize stop position pieces) : (pieces.map Span.length).sum = stop - position := by
  induction h with
  | @done position hdone =>
    by_cases hlt : position < stop
    · rw [Span.cutFirst_of_lt hpos hpages hword hlt] at hdone
      cases hdone
    · exact (Nat.sub_eq_zero_of_le (Nat.not_lt.1 hlt)).symm
  | cut hcut _ ih =>
    obtain ⟨hopens, rfl⟩ := Span.cutFirst_eq_some hpos hpages hword hcut
    have hle := hopens.fits
    rw [List.map_cons, List.sum_cons, ih]
    omega

/-- The pages follow one another, without a gap and without a repetition. -/
theorem map_page (h : Cuts pageSize stop position pieces) :
    pieces.map Span.page = List.range' (position / pageSize) pieces.length := by
  induction h with
  | done => rfl
  | @cut position next first rest hcut hrest ih =>
    obtain ⟨hopens, rfl⟩ := Span.cutFirst_eq_some hpos hpages hword hcut
    obtain ⟨hlength, hpage, hplace, -, hfull⟩ := hopens
    unfold PageNumber.start at hplace
    have hfirst : position / pageSize = first.page := (Nat.div_eq_iff hpos).2 ⟨by omega, by omega⟩
    rw [List.map_cons, ih, List.length_cons, List.range'_succ, hfirst]
    congr 1
    -- a span that ends with its page is followed by one on the next page
    cases hrest with
    | done => rfl
    | cut hnext =>
      have hlt := (Span.cutFirst_eq_some hpos hpages hword hnext).1.pos
      have hstop := (Span.cutFirst_eq_some hpos hpages hword hnext).1.fits
      have hend := hfull (by omega)
      have hsecond : (position + first.length) / pageSize = first.page + 1 :=
        (Nat.div_eq_iff hpos).2 ⟨by rw [Nat.add_mul]; omega, by rw [Nat.add_mul]; omega⟩
      rw [hsecond]

end Cuts

end

/-- In a storage of less than 2^32 pages a range is cut into pieces that tile it: no number on the way is out of its
range, the cutting comes to an end, every piece lies in one page of the storage and is not empty, each starts where
the one before it ends, together they are as long as the range, and no page is met twice. -/
theorem spans_tile_range {pages offset length : Nat} (hpageSize : checkPageSize pageSize = .ok ())
    (hpages : pages < 2 ^ 32) (hstop : offset + length ≤ pages * pageSize) :
    narrow (offset + length) 64 = .ok (offset + length) ∧
    Cuts pageSize (offset + length) offset (spans pageSize offset (offset + length)) ∧
    (∀ before span after, spans pageSize offset (offset + length) = before ++ span :: after →
      0 < span.length ∧ span.start + span.length ≤ pageSize ∧ span.page < pages ∧
        PageNumber.start span.page pageSize + span.start = offset + (before.map Span.length).sum) ∧
    ((spans pageSize offset (offset + length)).map Span.length).sum = length ∧
    ((spans pageSize offset (offset + length)).map Span.page).Nodup := by
  have hpos := (supported_of_checkPageSize hpageSize).pos
  have hlarge : pageSize ≤ 2 ^ 24 := (le_of_checkPageSize hpageSize).2
  have hsize : pages * pageSize ≤ 2 ^ 32 * 2 ^ 24 := Nat.mul_le_mul (Nat.le_of_lt hpages) hlarge
  have hword : offset + length < 2 ^ 64 := by omega
  have hnumbers : offset + length ≤ 2 ^ 32 * pageSize :=
    Nat.le_trans hstop (Nat.mul_le_mul_right pageSize (Nat.le_of_lt hpages))
  have hcuts := cuts_spans hpos hnumbers hword (Nat.le_add_right offset length)
  refine ⟨narrow_of_lt hword, hcuts, fun before span after heq => ?_, ?_, ?_⟩
  · obtain ⟨hlength, hpage, hplace, hfits, -⟩ := hcuts.opens hpos hnumbers hword heq
    refine ⟨hlength, hpage, ?_, hplace⟩
    unfold PageNumber.start at hplace
    exact Nat.lt_of_mul_lt_mul_right (Nat.lt_of_lt_of_le (by omega) hstop)
  · rw [hcuts.sum_length hpos hnumbers hword, Nat.add_sub_cancel_left]
  · rw [hcuts.map_page hpos hnumbers hword]
    exact List.nodup_range'

/-- The end of one page, the whole next one, and the front of a third one. -/
theorem spans_tile_range_of_three_pages :
    let pieces := spans 256 250 (250 + 300)
    checkPageSize 256 = .ok () ∧ 3 < 2 ^ 32 ∧ 250 + 300 ≤ 3 * 256 ∧ Cuts 256 (250 + 300) 250 pieces ∧
      (pieces.map Span.length).sum = 300 ∧ (pieces.map Span.page).Nodup ∧
      pieces.map (fun span => (span.page, span.start, span.length)) = [(0, 250, 6), (1, 0, 256), (2, 0, 38)] := by
  intro pieces
  have hpageSize : checkPageSize 256 = .ok () := rfl
  have hpages : 3 < 2 ^ 32 := by decide
  have hstop : 250 + 300 ≤ 3 * 256 := by decide
  obtain ⟨-, hcuts, -, hsum, hnodup⟩ := spans_tile_range hpageSize hpages hstop
  exact ⟨hpageSize, hpages, hstop, hcuts, hsum, hnodup, by decide +kernel⟩

end RecordStore
