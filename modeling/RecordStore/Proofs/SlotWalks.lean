import RecordStore.Proofs.SafeRegions
import RecordStore.Proofs.WholeScans

/-!
# Walks over the slots

Two walks over a region of any bytes.  The full walk starts behind the file header and counts slot after slot
(`Region.Visits`); it comes to the end of the region or to a slot that cannot be read (`takeCensus_ends`).  The walk
that decides whether an identifier names a slot starts at the page of that identifier and reads headers only; it says
exactly where a slot starts (`isSlotStart_reads`).  In a region that the full walk accepts no slot crosses a page, so
the two come by the same places (`page_walk_agrees_with_full_walk`).
-/

namespace RecordStore

open Bytes StorageView

namespace Region

variable {region : Region} {img : Image}

/-! ### The full walk -/

/-- A census comes to the end of the region or to a slot that cannot be read. -/
theorem takeCensus_ends (h : region.Fits img) (census : Census) :
    ∃ census' result, Counts region img census census' ∧
      Reads (fun σ _ => (region.takeCensus census : SlotM σ Census)) img result ∧
      (region.stop ≤ census'.offset ∧ result = .ok census' ∨
        census'.offset < region.stop ∧ ∃ e, region.slotSeen img census'.offset = .error e ∧ result = .error e) := by
  induction hn : region.stop - census.offset using Nat.strongRecOn generalizing census with
  | ind n ih =>
    by_cases hlt : census.offset < region.stop
    · have hslot : Reads (fun σ _ => (region.slotAt census.offset : SlotM σ SlotHeader)) img _ := slotAt_reads h hlt
      cases hseen : region.slotSeen img census.offset with
      | error e =>
        rw [hseen] at hslot
        refine ⟨census, .error e, .refl census, fun σ _ contract => ?_, .inr ⟨hlt, e, hseen, rfl⟩⟩
        change contract.Answers (region.takeCensus census) img _
        rw [takeCensus, if_pos hlt]
        exact (hslot σ contract).bind_error _
      | ok header =>
        rw [hseen] at hslot
        have hpos := header.slotSize_pos
        have hoffset : (census.count header).offset = census.offset + header.slotSize := rfl
        obtain ⟨census', result, hcounts, hreads, hresult⟩ := ih _ (by omega) (census.count header) rfl
        refine ⟨census', result, .step hlt hseen hcounts, fun σ _ contract => ?_, hresult⟩
        change contract.Answers (region.takeCensus census) img _
        rw [takeCensus, if_pos hlt]
        exact (hslot σ contract).bind (hreads σ contract)
    · refine ⟨census, .ok census, .refl census, fun σ _ contract => ?_, .inl ⟨Nat.not_lt.1 hlt, rfl⟩⟩
      change contract.Answers (region.takeCensus census) img _
      rw [takeCensus, if_neg hlt]
      exact Answers.pure census

/-- So does a count, which starts behind the file header. -/
theorem count_ends (h : region.Fits img) :
    ∃ census result, Counts region img .start census ∧
      Reads (fun σ _ => (region.count : SlotM σ Counters)) img result ∧
      (census.offset = region.stop ∧ result = .ok census.counters ∨
        census.offset < region.stop ∧ ∃ e, region.slotSeen img census.offset = .error e ∧ result = .error e) := by
  obtain ⟨census, result, hcounts, hreads, ⟨hend, rfl⟩ | ⟨hlt, e, hseen, rfl⟩⟩ := takeCensus_ends h .start
  · have hreached := hcounts.reached ⟨Nat.le_refl _, rfl, h.start⟩
    exact ⟨census, _, hcounts, fun σ _ contract => (hreads σ contract).bind (Answers.pure _),
      .inl ⟨Nat.le_antisymm hreached.stop hend, rfl⟩⟩
  · exact ⟨census, _, hcounts, fun σ _ contract => (hreads σ contract).bind_error _, .inr ⟨hlt, e, hseen, rfl⟩⟩

/-- Where the full walk comes by: behind the file header, and where a slot ends that it has read. -/
inductive Visits (region : Region) (img : Image) : Nat → Prop
  | first : Visits region img FileHeader.size
  | next {offset : Nat} {header : SlotHeader} (h : Visits region img offset) (hlt : offset < region.stop)
      (hseen : region.slotSeen img offset = .ok header) : Visits region img (offset + header.slotSize)

/-- Where the full walk comes by a slot may start. -/
theorem Visits.startsSlot {offset : Nat} (h : region.Visits img offset) : region.StartsSlot img offset := by
  induction h with
  | first =>
    have hfirst : region.StartsSlot img (max (0 * region.pageSize) FileHeader.size) := .first 0
    rwa [Nat.zero_mul, Nat.zero_max] at hfirst
  | next _ _ hseen ih => exact ih.next hseen

theorem Visits.low {offset : Nat} (h : region.Visits img offset) : FileHeader.size ≤ offset := h.startsSlot.low

/-- The full walk accepts the region: it comes to its end. -/
def Accepted (region : Region) (img : Image) : Prop :=
  ∃ census, Counts region img .start census ∧ census.offset = region.stop

/-- Of two walks that start together one goes on where the other one ends. -/
theorem Counts.linear {census left right : Census} (h : Counts region img census left)
    (h' : Counts region img census right) : Counts region img left right ∨ Counts region img right left := by
  induction h with
  | refl => exact .inl h'
  | @step census left header hlt hseen hrest ih =>
    cases h' with
    | refl => exact .inr (.step hlt hseen hrest)
    | @step _ _ header' _ hseen' hrest' =>
      obtain rfl : header' = header := by simpa using hseen'.symm.trans hseen
      exact ih hrest'

theorem Visits.exists_counts {offset : Nat} (h : region.Visits img offset) :
    ∃ census, Counts region img .start census ∧ census.offset = offset := by
  induction h with
  | first => exact ⟨.start, .refl _, rfl⟩
  | @next offset header _ hlt hseen ih =>
    obtain ⟨census, hcounts, rfl⟩ := ih
    exact ⟨census.count header, hcounts.trans (.step hlt hseen (.refl _)), rfl⟩

/-- The walk steps over a slot from its start to its end. -/
theorem Visits.end_le {start offset : Nat} {header : SlotHeader} (h : region.Visits img start)
    (hseen : region.slotSeen img start = .ok header) (hoffset : region.Visits img offset) (hlt : start < offset) :
    start + header.slotSize ≤ offset := by
  obtain ⟨census, hcounts, rfl⟩ := h.exists_counts
  obtain ⟨census', hcounts', rfl⟩ := hoffset.exists_counts
  rcases hcounts.linear hcounts' with hrest | hrest
  · cases hrest with
    | refl => exact absurd hlt (Nat.lt_irrefl _)
    | @step _ _ header' _ hseen' hrest =>
      obtain rfl : header' = header := by simpa using hseen'.symm.trans hseen
      exact hrest.le
  · exact absurd hrest.le (Nat.not_le.2 hlt)

/-- In an accepted region every slot that the full walk comes to can be read. -/
theorem Accepted.exists_header (h : region.Accepted img) {offset : Nat} (hvisits : region.Visits img offset)
    (hlt : offset < region.stop) : ∃ header, region.slotSeen img offset = .ok header := by
  obtain ⟨last, hcounts, hend⟩ := h
  obtain ⟨census, hcounts', rfl⟩ := hvisits.exists_counts
  rcases hcounts'.linear hcounts with hrest | hrest
  · cases hrest with
    | refl => exact absurd hend (Nat.ne_of_lt hlt)
    | step _ hseen _ => exact ⟨_, hseen⟩
  · exact absurd (hend ▸ hrest.le) (Nat.not_le.2 hlt)

/-- No slot crosses a page, so a walk that starts in front of a page and goes on behind its start comes by it. -/
private theorem Counts.visits_page {census last : Census} (h : Counts region img census last)
    (hvisits : region.Visits img census.offset) {page : Nat} (hstart : census.offset ≤ page * region.pageSize)
    (hend : page * region.pageSize ≤ last.offset) : region.Visits img (page * region.pageSize) := by
  induction h with
  | refl => rwa [← Nat.le_antisymm hstart hend]
  | @step census last header hlt hseen hrest ih =>
    rcases Nat.lt_or_eq_of_le hstart with hbefore | hat
    · obtain ⟨-, hpageEnd, -, -⟩ := slotSeen_eq_ok hseen
      exact ih (hvisits.next hlt hseen) (Nat.le_trans hpageEnd (endOfPage_le_mul hbefore)) hend
    · rwa [← hat]

/-- Wherever a slot starts in an accepted region, the full walk comes by. -/
theorem Accepted.visits_of_startsSlot (h : region.Accepted img) {offset : Nat} (hstarts : region.StartsSlot img offset)
    (hlt : offset < region.stop) : region.Visits img offset := by
  induction hstarts with
  | first page =>
    obtain ⟨last, hcounts, hend⟩ := h
    -- no slot crosses the start of a page, so the full walk comes by there
    rcases Nat.le_total (page * region.pageSize) FileHeader.size with hlow | hhigh
    · rw [Nat.max_eq_right hlow]
      exact .first
    · rw [Nat.max_eq_left hhigh] at hlt ⊢
      exact hcounts.visits_page .first hhigh (hend ▸ Nat.le_of_lt hlt)
  | @next offset header hstarts hseen ih =>
    have hbefore : offset < region.stop := by
      have hpos := header.slotSize_pos
      omega
    exact (ih hbefore).next hbefore hseen

/-! ### The walk through one page -/

section

-- The page of `target`, from its first slot on, as far as it belongs to the region; the walk is at `position`
variable {position target first length : Nat} (hpos : 0 < region.pageSize)
  (hlength : first + length = min (region.pageEnd target) region.stop) (hlow : region.pageStart target ≤ position)
  (hfirst : first ≤ position)

include hpos hlow in
private theorem pageEnd_in_page (hle : position ≤ target) : region.pageEnd position = region.pageEnd target := by
  refine congrArg (fun page => (page + 1) * region.pageSize) (Nat.le_antisymm (Nat.div_le_div_right hle) ?_)
  exact (Nat.le_div_iff_mul_le hpos).2 hlow

include hpos hlength hlow hfirst

/-- A header that the walk reads, of a slot that ends in front of the target, is that of a slot of the region. -/
private theorem slotSeen_of_page {header : SlotHeader} (hle : position + header.slotSize ≤ target)
    (htarget : target < first + length)
    (hdecode : SlotHeader.decode position ((img.read first length).extract (position - first)
      (position - first + SlotHeader.fullSize)).data.toList = .ok header) :
    region.slotSeen img position = .ok header := by
  have hsize := header.size_le_slotSize
  have hfull := header.headerSize_le
  have hpage := pageEnd_in_page hpos hlow (by omega)
  obtain ⟨-, hheader, hcongr⟩ := SlotHeader.decode_facts hdecode
  rw [Image.extract_read, show first + (position - first) = position by omega] at hheader hcongr
  refine slotSeen_of_decode (hcongr _ ?_) (by omega) (by omega)
  rw [Image.take_toList_read _ _ (by omega), Image.take_toList_read _ _ (by simpa using hheader)]

/-- The walk reads the header of every slot of the region that it comes to. -/
private theorem page_of_slotSeen {header : SlotHeader} (hle : position ≤ target)
    (hseen : region.slotSeen img position = .ok header) :
    SlotHeader.decode position ((img.read first length).extract (position - first)
      (position - first + SlotHeader.fullSize)).data.toList = .ok header := by
  have hsize := header.size_le_slotSize
  have hfull := header.headerSize_le
  have hpage := pageEnd_in_page hpos hlow hle
  obtain ⟨hdecode, hend, hstop, -⟩ := slotSeen_eq_ok hseen
  obtain ⟨-, hheader, hcongr⟩ := SlotHeader.decode_facts hdecode
  rw [Image.extract_read, show first + (position - first) = position by omega]
  refine hcongr _ ?_
  rw [Image.take_toList_read _ _ (by omega), Image.take_toList_read _ _ (by simpa using hheader)]

/-- The walk ends at or behind the target, and at it only if a slot starts there, or at a slot in front of the target
that cannot be read. -/
private theorem StartsSlot.reaches_ends (h : region.StartsSlot img position) (htarget : target < first + length) :
    (∃ answer, reaches (img.read first length) first target position = .ok answer ∧
      (answer = true → region.StartsSlot img target)) ∨
    ∃ broken fault, reaches (img.read first length) first target position = .error (.corruption broken fault) ∧
      region.StartsSlot img broken ∧ broken < target ∧ ∀ header, region.slotSeen img broken ≠ .ok header := by
  induction hn : target - position using Nat.strongRecOn generalizing position with
  | ind n ih =>
    rw [reaches]
    by_cases hlt : position < target
    · rw [if_pos hlt]
      dsimp only
      cases hdecode : SlotHeader.decode position ((img.read first length).extract (position - first)
          (position - first + SlotHeader.fullSize)).data.toList with
      | error fault =>
        refine .inr ⟨position, fault, rfl, h, hlt, fun header hseen => ?_⟩
        have hread := page_of_slotSeen hpos hlength hlow hfirst (Nat.le_of_lt hlt) hseen
        rw [hdecode] at hread
        cases hread
      | ok header =>
        have hstep := header.slotSize_pos
        -- a slot that ends at the target or in front of it is stepped over
        by_cases hle : position + header.slotSize ≤ target
        · have hseen := slotSeen_of_page hpos hlength hlow hfirst hle htarget hdecode
          exact ih _ (by omega) (by omega) (by omega) (h.next hseen) rfl
        · -- the slot ends behind the target
          refine .inl ⟨false, ?_, fun htrue => absurd htrue Bool.false_ne_true⟩
          dsimp only
          rw [reaches, if_neg (by omega), decide_eq_false (by omega)]
    · rw [if_neg hlt]
      exact .inl ⟨_, rfl, fun hat => of_decide_eq_true hat ▸ h⟩

end

/-- What the walk through its page says of an offset: whether a slot starts there, unless there is a slot in front of
it that cannot be read. -/
theorem isSlotStart_reads (h : region.Fits img) {offset : Nat} (hlow : FileHeader.size ≤ offset)
    (hhigh : offset < region.stop) :
    ∃ result, Reads (fun σ _ => (region.isSlotStart offset : SlotM σ Bool)) img result ∧
      (result = .ok true ↔ region.StartsSlot img offset) ∧
      ∀ e, result = .error e → ∃ broken fault, e = .corruption broken fault ∧ region.StartsSlot img broken ∧
        broken < offset ∧ ∀ header, region.slotSeen img broken ≠ .ok header := by
  have hpageSize := h.pageSize
  have hlarge := h.supported.large
  have hbound := h.bound
  have hpos : 0 < region.pageSize := hpageSize ▸ h.supported.pos
  have hpage : FileHeader.size < region.pageSize := by
    rw [hpageSize]
    exact Nat.lt_of_lt_of_le (by decide) hlarge
  have hstart : region.pageStart offset ≤ offset := Nat.div_mul_le_self _ _
  have hpageEnd : offset < region.pageEnd offset := by
    rw [region.pageEnd_eq]
    exact lt_endOfPage hpos _
  have hfirst : region.StartsSlot img (max (region.pageStart offset) FileHeader.size) := .first _
  by_cases hat : offset = max (region.pageStart offset) FileHeader.size
  · refine ⟨.ok true, fun σ _ contract => ?_, ⟨fun _ => hat ▸ hfirst, fun _ => rfl⟩, nofun⟩
    change contract.Answers (region.isSlotStart offset) img _
    unfold isSlotStart
    dsimp only
    rw [if_pos hat]
    exact Answers.pure true
  · generalize hfirstIs : max (region.pageStart offset) FileHeader.size = first at hat hfirst
    generalize hlengthIs : min (region.pageEnd offset) region.stop - first = length
    have hlength : first + length = min (region.pageEnd offset) region.stop := by omega
    have htarget : offset < first + length := by omega
    refine ⟨reaches (img.read first length) first offset first, fun σ _ contract => ?_,
      ⟨fun htrue => ?_, fun hstarts => ?_⟩, fun e herror => ?_⟩
    · change contract.Answers (region.isSlotStart offset) img _
      unfold isSlotStart
      dsimp only
      rw [hfirstIs, if_neg hat, hlengthIs]
      exact (contract.read_answers (by omega)).bind (Answers.ofExcept _)
    · rcases hfirst.reaches_ends hpos hlength (by omega) (Nat.le_refl _) htarget with
        ⟨answer, hanswer, hstarts⟩ | ⟨broken, fault, hbroken, -⟩
      · exact hstarts (Except.ok.inj (hanswer.symm.trans htrue))
      · cases hbroken.symm.trans htrue
    · rw [hstarts.reaches_eq hpage (Nat.le_refl _) rfl hfirstIs.symm htarget, reaches, if_neg (Nat.lt_irrefl _),
        decide_eq_true rfl]
    · rcases hfirst.reaches_ends hpos hlength (by omega) (Nat.le_refl _) htarget with
        ⟨answer, hanswer, -⟩ | ⟨broken, fault, hbroken, hrest⟩
      · cases hanswer.symm.trans herror
      · exact ⟨broken, fault, Except.error.inj (herror.symm.trans hbroken), hrest⟩

/-- In an accepted region it comes to an answer, which is whether the full walk comes by. -/
theorem Accepted.isSlotStart_answers (h : region.Accepted img) (hfits : region.Fits img) {offset : Nat}
    (hlow : FileHeader.size ≤ offset) (hhigh : offset < region.stop) :
    ∃ answer, Reads (fun σ _ => (region.isSlotStart offset : SlotM σ Bool)) img (.ok answer) ∧
      (answer = true ↔ region.Visits img offset) := by
  obtain ⟨result, hreads, htrue, herror⟩ := isSlotStart_reads hfits hlow hhigh
  cases result with
  | error e =>
    obtain ⟨broken, fault, -, hstarts, hlt, hnone⟩ := herror e rfl
    have hbroken := Nat.lt_trans hlt hhigh
    obtain ⟨header, hseen⟩ := h.exists_header (h.visits_of_startsSlot hstarts hbroken) hbroken
    exact absurd hseen (hnone header)
  | ok answer =>
    refine ⟨answer, hreads, fun hanswer => ?_, fun hvisits => ?_⟩
    · exact h.visits_of_startsSlot (htrue.1 (congrArg Except.ok hanswer)) hhigh
    · exact Except.ok.inj (htrue.2 hvisits.startsSlot)

/-- What is looked up under an identifier that is not that of a slot is not found. -/
theorem lookUp_not_found {id : RecordId} (h : Reads (fun σ _ => (region.isSlot id : SlotM σ Bool)) img (.ok false))
    (maxHops : Nat) :
    Reads (fun σ _ => (region.lookUp maxHops id : SlotM σ ByteArray)) img (.error (.notFound id)) := by
  intro σ _ contract
  have hresolve : contract.Answers (region.resolve maxHops id) img (.error (.notFound id)) :=
    (h σ contract).bind (Answers.throw _)
  exact hresolve.bind_error _

end Region

namespace Session

variable {σ α : Type} [PagedStorage σ] {contract : StorageContract σ} {session : Session σ}

/-- `act` leaves the session and the bytes of its storage as they are, and answers `result` unless a call fails. -/
def Answers (contract : StorageContract σ) (act : SessionM σ α) (session : Session σ) (result : Except StoreError α) :
    Prop :=
  (act session).2.seen contract.toStorageView = session.seen contract.toStorageView ∧
    ((act session).1 = result ∨ contract.fallible ∧ ∃ cause, (act session).1 = .error (.io cause))

theorem answers_onSlots (husable : contract.Usable session.storage)
    {act : ∀ (σ : Type) [PagedStorage σ], SlotM σ α} {result : Except StoreError α}
    (h : Reads act (contract.image session.storage) result) : Answers contract (onSlots (act σ)) session result := by
  obtain ⟨-, himage, hanswer⟩ := h σ contract session.storage husable rfl
  exact ⟨congrArg (fun storage => { session with storage }) himage, hanswer⟩

theorem countSlots_answers (husable : contract.Usable session.storage) (hopened : session.closed = false)
    {result : Except StoreError Counters}
    (h : Reads (fun σ _ => (session.region.count : SlotM σ Counters)) (contract.image session.storage) result) :
    Answers contract countSlots session result := by
  unfold Answers countSlots
  rw [ensureOpen_bind hopened]
  exact answers_onSlots husable h

/-- A count that has come to its end has accepted the region. -/
theorem accepted_of_countSlots (h : InUse contract session) {counters : Counters}
    (hcount : (countSlots session).1 = .ok counters) : session.region.Accepted (contract.image session.storage) := by
  obtain ⟨husable, hsound⟩ := h.sound
  obtain ⟨census, result, hcounts, hreads, hresult⟩ := Region.count_ends hsound.fits
  obtain ⟨-, hanswer⟩ := countSlots_answers husable hsound.opened hreads
  rw [hcount] at hanswer
  rcases hresult with ⟨hend, rfl⟩ | ⟨-, e, -, rfl⟩
  · exact ⟨census, hcounts, hend⟩
  · rcases hanswer with hanswer | ⟨-, cause, hanswer⟩ <;> cases hanswer

/-- Where a full scan accepts what the storage holds, the walk through one page says of every offset whether the full
walk comes by it, and never meets a slot that cannot be read.  So a slot is found at its identifier only: nothing that
a payload holds is taken for a slot. -/
theorem page_walk_agrees_with_full_walk (h : InUse contract session) {counters : Counters}
    (hcount : (countSlots session).1 = .ok counters) :
    let img := contract.image session.storage
    let region := session.region
    (∀ offset, FileHeader.size ≤ offset → offset < region.stop →
      ∃ answer, contract.Answers (region.isSlotStart offset) img (.ok answer) ∧
        (answer = true ↔ region.Visits img offset)) ∧
      ∀ start header, region.Visits img start → region.slotSeen img start = .ok header →
        ∀ id : RecordId, start < id.offset → id.offset < start + header.slotSize →
          contract.Answers (region.isSlot id) img (.ok false) ∧
            Answers contract (read id) session (.error (.notFound id)) := by
  obtain ⟨husable, hsound⟩ := h.sound
  intro img region
  have hfits : region.Fits img := hsound.fits
  have haccepted : region.Accepted img := accepted_of_countSlots h hcount
  refine ⟨fun offset hlow hhigh => ?_, fun start header hvisits hseen id hstart hend => ?_⟩
  · obtain ⟨answer, hreads, hanswer⟩ := haccepted.isSlotStart_answers hfits hlow hhigh
    exact ⟨answer, hreads σ contract, hanswer⟩
  · obtain ⟨-, -, hstop, -⟩ := Region.slotSeen_eq_ok hseen
    have hlow : FileHeader.size ≤ id.offset := Nat.le_trans hvisits.low (Nat.le_of_lt hstart)
    have hhigh : id.offset < region.stop := Nat.lt_of_lt_of_le hend hstop
    obtain ⟨answer, hreads, hanswer⟩ := haccepted.isSlotStart_answers hfits hlow hhigh
    -- the full walk steps over the slot, and so over what lies inside it
    have hinside : ¬region.Visits img id.offset := fun hid => Nat.not_le.2 hend (hvisits.end_le hseen hid hstart)
    obtain rfl : answer = false := Bool.eq_false_iff.2 fun htrue => hinside (hanswer.1 htrue)
    have hslot : Reads (fun σ _ => (region.isSlot id : SlotM σ Bool)) img (.ok false) := by
      intro σ _ contract
      change contract.Answers (region.isSlot id) img _
      unfold Region.isSlot Region.contains
      rw [if_pos (by simpa using ⟨hlow, hhigh⟩)]
      exact hreads σ contract
    refine ⟨hslot σ contract, ?_⟩
    unfold Answers
    rw [read_apply (show session.closed = false from hsound.opened)]
    exact answers_onSlots husable (Region.lookUp_not_found hslot session.maxHops)

/-- The payload of the first record looks like a redirect. -/
theorem page_walk_agrees_with_full_walk_in_memory : ∃ session,
    openOn (foreignMemory firstId) .exactDefault .default = .ok session ∧
      (countSlots session).1 = .ok ⟨2, 0, 0, 25, 25, 128⟩ ∧
      (let img := Memory.contract.image session.storage
       Memory.contract.Answers (session.region.isSlotStart laterId.offset) img (.ok true) ∧
         Memory.contract.Answers (session.region.isSlot insideId) img (.ok false)) ∧
      (read insideId session).1 = .error (.notFound insideId) := by
  have hrun : (openOn (foreignMemory firstId) .exactDefault .default).toOption.map (fun session =>
      ((countSlots session).1, session.counters.size,
        session.region.slotSeen (Memory.contract.image session.storage) 64)) =
        some (.ok ⟨2, 0, 0, 25, 25, 128⟩, 128, .ok (.live 24 24 none)) := by
    decide +kernel
  rcases hopen : openOn (foreignMemory firstId) .exactDefault .default with e | session
  · rw [hopen] at hrun
    cases hrun
  · rw [hopen] at hrun
    obtain ⟨hcount, hsize, hseen⟩ : _ ∧ _ ∧ _ := by simpa using Option.some.inj hrun
    have huse : InUse Memory.contract session := .opened (usable_foreignMemory _) hopen
    obtain ⟨hagrees, hinside⟩ := page_walk_agrees_with_full_walk huse hcount
    have hlater : laterId.offset < session.region.stop := by
      rw [show session.region.stop = 128 from hsize]
      decide
    have hvisits := Region.Visits.first.next (Nat.lt_trans (by decide) hlater) hseen
    obtain ⟨answer, hanswer, hiff⟩ := hagrees laterId.offset (by decide) hlater
    obtain rfl : answer = true := hiff.2 hvisits
    obtain ⟨hslot, hread⟩ := hinside 64 _ .first hseen insideId (by decide) (by decide)
    exact ⟨session, rfl, hcount, ⟨hanswer, hslot⟩, hread.2.resolve_right fun hfailed => hfailed.1⟩

end Session

end RecordStore
