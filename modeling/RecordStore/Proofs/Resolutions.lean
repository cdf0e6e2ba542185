import Mathlib.Data.Finset.Card
import RecordStore.Proofs.Recorder
import RecordStore.Proofs.SlotWalks

/-!
# Resolutions

What an identifier leads to in a region of any bytes.  The slots that stand in the region (`Region.Stands`) are those
that the walk through their page comes by and that end inside of their page and of the region; redirects among them
lead from one to the next (`Region.Passes`).  An identifier is resolved exactly if redirects lead from it to a record
or a tombstone, no slot is passed twice and the limit is kept (`Region.Leads`, `Region.resolve_reads`); where the first
slot is a redirect, whatever else is met is reported as corruption (`resolution_follows_redirects`).
-/

namespace RecordStore

open Bytes StorageView

namespace Region

variable {region : Region} {img : Image}

/-! ### Chains of redirects -/

/-- A slot of the region: the walk through its page comes by, its header can be read, and it ends inside of its page
and of the region. -/
structure Stands (region : Region) (img : Image) (id : RecordId) (header : SlotHeader) : Prop where
  low : FileHeader.size ≤ id.offset
  high : id.offset < region.stop
  start : region.StartsSlot img id.offset
  decoded : SlotHeader.decode id.offset (img.read id.offset
    (min (region.pageEnd id.offset - id.offset) SlotHeader.fullSize)).data.toList = .ok header
  page : id.offset + header.slotSize ≤ region.pageEnd id.offset
  stop : id.offset + header.slotSize ≤ region.stop

theorem Stands.seen {id : RecordId} {header : SlotHeader} (h : region.Stands img id header) :
    region.slotSeen img id.offset = .ok header :=
  slotSeen_of_decode h.decoded h.page h.stop

theorem Stands.of_seen {id : RecordId} {header : SlotHeader} (hlow : FileHeader.size ≤ id.offset)
    (hstart : region.StartsSlot img id.offset) (hseen : region.slotSeen img id.offset = .ok header) :
    region.Stands img id header := by
  obtain ⟨hdecode, hpage, hstop, -⟩ := slotSeen_eq_ok hseen
  have hpos := header.slotSize_pos
  exact ⟨hlow, by omega, hstart, hdecode, hpage, hstop⟩

theorem Stands.unique {id : RecordId} {header header' : SlotHeader} (h : region.Stands img id header)
    (h' : region.Stands img id header') : header = header' :=
  Except.ok.inj (h.seen.symm.trans h'.seen)

/-- Redirects lead from one slot to another, first to last. -/
inductive Passes (region : Region) (img : Image) : RecordId → List Redirect → RecordId → Prop
  | here (id : RecordId) : Passes region img id [] id
  | hop {id target last : RecordId} {capacity : Nat} {passed : List Redirect}
      (hstands : region.Stands img id (.moved capacity target)) (hrest : Passes region img target passed last) :
      Passes region img id ({ id, capacity } :: passed) last

namespace Passes

variable {id mid last : RecordId} {passed passed' : List Redirect}

theorem trans (h : region.Passes img id passed mid) (h' : region.Passes img mid passed' last) :
    region.Passes img id (passed ++ passed') last := by
  induction h with
  | here => exact h'
  | hop hstands _ ih => exact .hop hstands (ih h')

/-- Of two chains that start together one goes on where the other one ends. -/
theorem linear (h : region.Passes img id passed mid) (h' : region.Passes img id passed' last) :
    (∃ rest, passed' = passed ++ rest ∧ region.Passes img mid rest last) ∨
      ∃ rest, passed = passed' ++ rest ∧ region.Passes img last rest mid := by
  induction h generalizing passed' with
  | here id => exact .inl ⟨passed', rfl, h'⟩
  | @hop id target mid capacity passed hstands hrest ih =>
    cases h' with
    | here => exact .inr ⟨_, rfl, .hop hstands hrest⟩
    | @hop _ target' _ capacity' passed' hstands' hrest' =>
      obtain ⟨rfl, rfl⟩ : capacity = capacity' ∧ target = target' := by simpa using hstands.unique hstands'
      rcases ih hrest' with ⟨rest, rfl, hgoes⟩ | ⟨rest, rfl, hgoes⟩
      · exact .inl ⟨rest, rfl, hgoes⟩
      · exact .inr ⟨rest, rfl, hgoes⟩

theorem mem (h : region.Passes img id passed last) : id ∈ passed.map (·.id) ++ [last] := by
  cases h <;> simp

/-- Every slot on the way stands in the region. -/
theorem stands (h : region.Passes img id passed last) :
    ∀ redirect ∈ passed, ∃ target, region.Stands img redirect.id (.moved redirect.capacity target) := by
  induction h with
  | here => exact nofun
  | hop hstands _ ih => exact List.forall_mem_cons.2 ⟨⟨_, hstands⟩, ih⟩

/-- A chain whose last slot stands in the region starts with one that does. -/
theorem stands_first (h : region.Passes img id passed last) {header : SlotHeader}
    (hlast : region.Stands img last header) : ∃ header, region.Stands img id header := by
  cases h with
  | here => exact ⟨header, hlast⟩
  | hop hstands _ => exact ⟨_, hstands⟩

end Passes

/-- Redirects lead from `id` to the record or the tombstone that was found, and no slot is passed twice. -/
structure Leads (region : Region) (img : Image) (id : RecordId) (found : Resolution) : Prop where
  passes : region.Passes img id found.passed found.id
  stands : region.Stands img found.id found.header
  ends : found.header.state = .live ∨ found.header.state = .deleted
  distinct : (found.passed.map (·.id) ++ [found.id]).Nodup

namespace Leads

variable {id current : RecordId} {passed : List Redirect} {found : Resolution}

/-- What is found stands at the end of every chain from `id`, and a slot on the way there is a redirect. -/
theorem at_slot (h : region.Leads img id found) (hpasses : region.Passes img id passed current) {header : SlotHeader}
    (hstands : region.Stands img current header) :
    found = { id := current, header, passed } ∨
      ∃ capacity target rest, header = .moved capacity target ∧
        found.passed = passed ++ { id := current, capacity } :: rest ∧ region.Passes img target rest found.id := by
  obtain ⟨last, header', passed'⟩ := found
  have hends := h.ends
  have hlast := h.stands
  dsimp only at hends hlast
  rcases hpasses.linear h.passes with ⟨rest, hpassed, hgoes⟩ | ⟨rest, hpassed, hgoes⟩
  · dsimp only at hpassed hgoes
    cases hgoes with
    | here =>
      obtain rfl := hlast.unique hstands
      rw [hpassed, List.append_nil]
      exact .inl rfl
    | @hop _ target _ capacity rest hmoved hrest =>
      exact .inr ⟨capacity, target, rest, hstands.unique hmoved, hpassed, hrest⟩
  · dsimp only at hpassed hgoes
    cases hgoes with
    | here =>
      obtain rfl := hlast.unique hstands
      rw [hpassed, List.append_nil]
      exact .inl rfl
    | hop hmoved _ =>
      rw [hlast.unique hmoved] at hends
      rcases hends with hends | hends <;> cases hends

/-- The target of a redirect on the way is a slot other than padding, and none of those passed before. -/
theorem after_redirect (h : region.Leads img id found) (hpasses : region.Passes img id passed current)
    {capacity : Nat} {target : RecordId} (hstands : region.Stands img current (.moved capacity target)) :
    passed.length < found.passed.length ∧ target ∉ passed.map (·.id) ++ [current] ∧
      ∃ header, region.Stands img target header ∧ header.state ≠ .padding := by
  have hends := h.ends
  rcases h.at_slot hpasses hstands with rfl | ⟨capacity', target', rest, hmoved, hpassed, hrest⟩
  · rcases hends with hends | hends <;> cases hends
  · cases hmoved
    have hdistinct := h.distinct
    have hpassed' : found.passed = (passed ++ [{ id := current, capacity }]) ++ rest := by
      rw [hpassed, List.append_assoc]
      rfl
    rw [hpassed', List.map_append, List.append_assoc] at hdistinct
    refine ⟨?_, fun htarget => ?_, ?_⟩
    · rw [hpassed, List.length_append, List.length_cons]
      omega
    · refine (List.nodup_append.1 hdistinct).2.2 target ?_ target hrest.mem rfl
      simpa using htarget
    · cases hrest with
      | here =>
        refine ⟨_, h.stands, ?_⟩
        rcases hends with hends | hends <;> rw [hends] <;> nofun
      | hop hnext _ => exact ⟨_, hnext, nofun⟩

end Leads

/-! ### Following them -/

/-- Whether an identifier is taken for that of a slot. -/
theorem isSlot_reads (h : region.Fits img) (id : RecordId) :
    ∃ result, Reads (fun σ _ => (region.isSlot id : SlotM σ Bool)) img result ∧
      (result = .ok true ↔ FileHeader.size ≤ id.offset ∧ id.offset < region.stop ∧ region.StartsSlot img id.offset) ∧
      ∀ e, result = .error e → ∃ broken fault, e = .corruption broken fault := by
  by_cases hrange : FileHeader.size ≤ id.offset ∧ id.offset < region.stop
  · obtain ⟨result, hreads, htrue, herror⟩ := isSlotStart_reads h hrange.1 hrange.2
    refine ⟨result, fun σ _ contract => ?_, ?_, fun e he => ?_⟩
    · change contract.Answers (region.isSlot id) img _
      unfold isSlot contains
      rw [if_pos (by simpa using hrange)]
      exact hreads σ contract
    · rw [htrue]
      exact ⟨fun hstarts => ⟨hrange.1, hrange.2, hstarts⟩, fun hall => hall.2.2⟩
    · obtain ⟨broken, fault, hbroken, -⟩ := herror e he
      exact ⟨broken, fault, hbroken⟩
  · refine ⟨.ok false, fun σ _ contract => ?_, ⟨nofun, fun hall => absurd ⟨hall.1, hall.2.1⟩ hrange⟩, nofun⟩
    change contract.Answers (region.isSlot id) img _
    unfold isSlot contains
    rw [if_neg (by simpa using hrange)]
    exact Answers.pure false

/-- Goes on with the header of the slot `id`, as both a resolution does and every redirect it follows. -/
private def enter {σ α : Type} [PagedStorage σ] (region : Region) (id : RecordId) (refusal : StoreError)
    (next : SlotHeader → SlotM σ α) : SlotM σ α := do
  if ← region.isSlot id then
    let header ← region.slotAt id.offset
    next header
  else throw refusal

/-- There is such a slot to go on with, or it ends with the refusal or with corruption, whatever was to come. -/
private theorem enter_reads (h : region.Fits img) (id : RecordId) (refusal : StoreError) :
    (∃ header, region.Stands img id header ∧
      ∀ {α : Type} (next : ∀ (σ : Type) [PagedStorage σ], SlotHeader → SlotM σ α) {result : Except StoreError α},
        Reads (fun σ _ => next σ header) img result → Reads (fun σ _ => region.enter id refusal (next σ)) img result) ∨
    (∀ header, ¬region.Stands img id header) ∧ ∃ e, (e = refusal ∨ ∃ offset fault, e = .corruption offset fault) ∧
      ∀ {α : Type} (next : ∀ (σ : Type) [PagedStorage σ], SlotHeader → SlotM σ α),
        Reads (fun σ _ => region.enter id refusal (next σ)) img (.error e) := by
  obtain ⟨slot, hreads, hslot, hbroken⟩ := isSlot_reads h id
  have hstart : ∀ {header}, region.Stands img id header → slot = .ok true :=
    fun hstands => hslot.2 ⟨hstands.low, hstands.high, hstands.start⟩
  rcases slot with e | ⟨_ | _⟩
  · refine .inr ⟨fun header hstands => (nomatch hstart hstands), e, .inr (hbroken e rfl), fun next σ _ contract => ?_⟩
    exact (hreads σ contract).bind_error _
  · refine .inr ⟨fun header hstands => (nomatch hstart hstands), refusal, .inl rfl, fun next σ _ contract => ?_⟩
    exact (hreads σ contract).bind (Answers.throw _)
  · obtain ⟨hlow, hhigh, hstarts⟩ := hslot.1 rfl
    have hheader := slotAt_reads h hhigh
    cases hseen : region.slotSeen img id.offset with
    | error e =>
      rw [hseen] at hheader
      refine .inr ⟨fun header hstands => ?_, e, .inr ?_, fun next σ _ contract => ?_⟩
      · cases hseen.symm.trans hstands.seen
      · obtain ⟨fault, rfl⟩ := slotSeen_eq_error hseen
        exact ⟨_, fault, rfl⟩
      · exact (hreads σ contract).bind ((hheader σ contract).bind_error _)
    | ok header =>
      rw [hseen] at hheader
      refine .inl ⟨header, .of_seen hlow hstarts hseen, fun next result hnext σ _ contract => ?_⟩
      exact (hreads σ contract).bind ((hheader σ contract).bind (hnext σ contract))

/-- As many slots as there are places, at most. -/
def places (region : Region) : Nat := region.stop / alignment

/-- Slots of the region that differ are at most as many as its places. -/
private theorem length_le_places {ids : List RecordId} (hdistinct : ids.Nodup) (h : ∀ id ∈ ids, id.offset < region.stop)
    (haligned : region.stop % alignment = 0) : ids.length ≤ region.places := by
  have hindex : (ids.map (·.index)).Nodup := hdistinct.map fun a b => RecordId.ext
  have hsub : (ids.map (·.index)).toFinset ⊆ Finset.range region.places := by
    intro index hmem
    obtain ⟨id, hid, rfl⟩ := List.mem_map.1 (List.mem_toFinset.1 hmem)
    have hlt : id.index * alignment < region.stop := h id hid
    rw [Finset.mem_range, places, Nat.lt_div_iff_mul_lt_of_dvd (by decide) (Nat.dvd_of_mod_eq_zero haligned)]
    exact hlt
  have hcard := Finset.card_le_card hsub
  rwa [List.toFinset_card_of_nodup hindex, List.length_map, Finset.card_range] at hcard

/-- Two limits are alike if they are the same or there are not that many places. -/
def LimitsAlike (region : Region) (maxHops maxHops' : Nat) : Prop :=
  min maxHops region.places = min maxHops' region.places

theorem LimitsAlike.lt_iff {maxHops maxHops' count : Nat} (h : region.LimitsAlike maxHops maxHops')
    (hcount : count < region.places) : count < maxHops' ↔ count < maxHops := by
  unfold LimitsAlike at h
  omega

theorem LimitsAlike.eq_of_le {maxHops maxHops' count : Nat} (h : region.LimitsAlike maxHops maxHops')
    (hcount : count < region.places) (hle : maxHops ≤ count) : maxHops' = maxHops := by
  unfold LimitsAlike at h
  omega

/-- What work that follows redirects from `id` comes to: what `id` leads to within the limit, or an error, which is
corruption unless there is no redirect. -/
structure Resolves (region : Region) (img : Image) (maxHops : Nat) (id : RecordId)
    (result : Except StoreError Resolution) : Prop where
  found : ∀ found, result = .ok found ↔ region.Leads img id found ∧ found.passed.length ≤ maxHops
  failed : ∀ e, result = .error e → (∃ offset fault, e = .corruption offset fault) ∨
    e = .notFound id ∧ ∀ header, region.Stands img id header → header.state = .padding

namespace Resolves

variable {maxHops : Nat} {id current : RecordId} {header : SlotHeader} {passed : List Redirect}

theorem of_corruption {e : StoreError} (he : ∃ offset fault, e = .corruption offset fault)
    (hnone : ∀ found, region.Leads img id found → maxHops < found.passed.length) :
    region.Resolves img maxHops id (.error e) where
  found found := ⟨nofun, fun hleads => absurd hleads.2 (Nat.not_le.2 (hnone found hleads.1))⟩
  failed := by
    rintro _ ⟨⟩
    exact .inl he

theorem of_notFound (hnone : ∀ header, region.Stands img id header → header.state = .padding) :
    region.Resolves img maxHops id (.error (.notFound id)) where
  found found := by
    refine ⟨nofun, fun hleads => ?_⟩
    obtain ⟨header, hstands⟩ := hleads.1.passes.stands_first hleads.1.stands
    have hpadding := hnone header hstands
    rcases hleads.1.at_slot (.here id) hstands with hfound | ⟨_, _, _, rfl, -⟩
    · have hends := hleads.1.ends
      rw [hfound] at hends
      rcases hends with hends | hends <;> cases hends.symm.trans hpadding
    · cases hpadding
  failed := by
    rintro _ ⟨⟩
    exact .inr ⟨rfl, hnone⟩

theorem of_ends (hpasses : region.Passes img id passed current) (hstands : region.Stands img current header)
    (hends : header.state = .live ∨ header.state = .deleted) (hdistinct : (passed.map (·.id) ++ [current]).Nodup)
    (hlength : passed.length ≤ maxHops) : region.Resolves img maxHops id (.ok { id := current, header, passed }) where
  found found := by
    constructor
    · rintro ⟨⟩
      exact ⟨⟨hpasses, hstands, hends, hdistinct⟩, hlength⟩
    · rintro ⟨hleads, -⟩
      rcases hleads.at_slot hpasses hstands with rfl | ⟨_, _, _, rfl, -⟩
      · rfl
      · rcases hends with hends | hends <;> cases hends
  failed := nofun

end Resolves

/-- On a chain that goes on behind its last slot there is a place left for the slot to come. -/
private theorem Passes.length_lt_places {id current : RecordId} {passed : List Redirect} {header : SlotHeader}
    (hpasses : region.Passes img id passed current) (hstands : region.Stands img current header)
    (hdistinct : (passed.map (·.id) ++ [current]).Nodup) (haligned : region.stop % alignment = 0) :
    passed.length < region.places := by
  have hinside : ∀ slot ∈ passed.map (·.id) ++ [current], slot.offset < region.stop := by
    intro slot hslot
    rcases List.mem_append.1 hslot with hslot | hslot
    · obtain ⟨redirect, hredirect, rfl⟩ := List.mem_map.1 hslot
      obtain ⟨_, hstands'⟩ := hpasses.stands redirect hredirect
      exact hstands'.high
    · rw [List.mem_singleton.1 hslot]
      exact hstands.high
  have hroom := length_le_places hdistinct hinside haligned
  rwa [List.length_append, List.length_map, List.length_singleton] at hroom

/-- Following a redirect, as a choice between its ends and its target. -/
private theorem follow_moved {σ : Type} [PagedStorage σ] (maxHops : Nat) (id current : RecordId) (capacity : Nat)
    (target : RecordId) (passed : List Redirect) :
    (region.follow maxHops id current (.moved capacity target) passed : SlotM σ Resolution) =
      if target ∈ passed.map (·.id) ++ [current] then throw (.corruption current.offset (.redirectCycle target))
      else if passed.length < maxHops then
        region.enter target (.corruption current.offset (.redirectToNoSlot target)) fun next =>
          region.follow maxHops id target next (passed ++ [{ id := current, capacity }])
      else throw (.corruption id.offset (.tooManyHops id maxHops)) := by
  have hany : ((passed ++ [{ id := current, capacity }] : List Redirect).any (·.id = target)) = true ↔
      target ∈ passed.map (·.id) ++ [current] := by
    simp [eq_comm (a := target)]
  rw [follow]
  simp only [hany]
  rfl

/-- Following the redirects from `current`, where those passed have led, comes to what work that follows redirects
from `id` comes to, under each limit that is alike. -/
private def FollowResolves (region : Region) (img : Image) (maxHops : Nat) (id current : RecordId)
    (header : SlotHeader) (passed : List Redirect) : Prop :=
  ∃ result, region.Resolves img maxHops id result ∧ ∀ maxHops', region.LimitsAlike maxHops maxHops' →
    Reads (fun σ _ => (region.follow maxHops' id current header passed : SlotM σ Resolution)) img result

section FollowResolves

variable {maxHops : Nat} {id current : RecordId} {passed : List Redirect} {capacity : Nat}

private theorem follow_ends {header : SlotHeader} (hpasses : region.Passes img id passed current)
    (hstands : region.Stands img current header) (hdistinct : (passed.map (·.id) ++ [current]).Nodup)
    (hlength : passed.length ≤ maxHops) (hends : header.state = .live ∨ header.state = .deleted) :
    region.FollowResolves img maxHops id current header passed := by
  refine ⟨_, .of_ends hpasses hstands hends hdistinct hlength, fun maxHops' _ σ _ contract => ?_⟩
  change contract.Answers (region.follow _ _ _ _ _) img _
  cases header with
  | live => rw [follow]; exact Answers.pure _
  | deleted => rw [follow]; exact Answers.pure _
  | moved => rcases hends with hends | hends <;> cases hends
  | padding => rcases hends with hends | hends <;> cases hends

private theorem follow_padding (hpasses : region.Passes img id passed current)
    (hstands : region.Stands img current (.padding capacity)) :
    region.FollowResolves img maxHops id current (.padding capacity) passed := by
  cases hlast : passed.getLast? with
  | none =>
    obtain rfl := List.getLast?_eq_none_iff.1 hlast
    cases hpasses
    refine ⟨_, .of_notFound fun header hheader => ?_, fun maxHops' _ σ _ contract => ?_⟩
    · rw [hheader.unique hstands, SlotHeader.state]
    · change contract.Answers (region.follow _ _ _ _ _) img _
      rw [follow]
      exact Answers.throw _
  | some redirect =>
    refine ⟨_, .of_corruption ⟨redirect.id.offset, .redirectToPadding current, rfl⟩ fun found hleads => ?_,
      fun maxHops' _ σ _ contract => ?_⟩
    · have hends := hleads.ends
      rcases hleads.at_slot hpasses hstands with rfl | ⟨_, _, _, hmoved, -⟩
      · rcases hends with hends | hends <;> cases hends
      · cases hmoved
    · change contract.Answers (region.follow _ _ _ _ _) img _
      rw [follow, hlast]
      exact Answers.throw _

variable {target : RecordId}

private theorem follow_cycle (hpasses : region.Passes img id passed current)
    (hstands : region.Stands img current (.moved capacity target))
    (hcycle : target ∈ passed.map (·.id) ++ [current]) :
    region.FollowResolves img maxHops id current (.moved capacity target) passed := by
  refine ⟨_, .of_corruption ⟨current.offset, .redirectCycle target, rfl⟩
    fun found hleads => absurd hcycle (hleads.after_redirect hpasses hstands).2.1, fun maxHops' _ σ _ contract => ?_⟩
  change contract.Answers (region.follow _ _ _ _ _) img _
  rw [follow_moved, if_pos hcycle]
  exact Answers.throw _

private theorem follow_beyond (hpasses : region.Passes img id passed current)
    (hstands : region.Stands img current (.moved capacity target))
    (hfresh : target ∉ passed.map (·.id) ++ [current]) (hplaces : passed.length < region.places)
    (hlong : maxHops ≤ passed.length) :
    region.FollowResolves img maxHops id current (.moved capacity target) passed := by
  refine ⟨_, .of_corruption ⟨id.offset, .tooManyHops id maxHops, rfl⟩
    fun found hleads => Nat.lt_of_le_of_lt hlong (hleads.after_redirect hpasses hstands).1,
    fun maxHops' halike σ _ contract => ?_⟩
  obtain rfl := halike.eq_of_le hplaces hlong
  change contract.Answers (region.follow _ _ _ _ _) img _
  rw [follow_moved, if_neg hfresh, if_neg (Nat.not_lt.2 hlong)]
  exact Answers.throw _

/-- Within the limit it is left to the target, if that is a slot. -/
private theorem follow_target (h : region.Fits img) (hpasses : region.Passes img id passed current)
    (hstands : region.Stands img current (.moved capacity target))
    (hfresh : target ∉ passed.map (·.id) ++ [current]) (hplaces : passed.length < region.places)
    (hlt : passed.length < maxHops) (hnext : ∀ next, region.Stands img target next →
      region.FollowResolves img maxHops id target next (passed ++ [{ id := current, capacity }])) :
    region.FollowResolves img maxHops id current (.moved capacity target) passed := by
  have henter : ∀ {σ : Type} [PagedStorage σ] {maxHops' : Nat}, region.LimitsAlike maxHops maxHops' →
      (region.follow maxHops' id current (.moved capacity target) passed : SlotM σ Resolution) =
        region.enter target (.corruption current.offset (.redirectToNoSlot target)) fun next =>
          region.follow maxHops' id target next (passed ++ [{ id := current, capacity }]) := by
    intro σ _ maxHops' halike
    rw [follow_moved, if_neg hfresh, if_pos ((halike.lt_iff hplaces).2 hlt)]
  rcases enter_reads h target (.corruption current.offset (.redirectToNoSlot target)) with
    ⟨next, hstands', hreads⟩ | ⟨hnone, e, he, hreads⟩
  · obtain ⟨result, hresolves, hfollow⟩ := hnext next hstands'
    refine ⟨result, hresolves, fun maxHops' halike σ _ contract => ?_⟩
    change contract.Answers (region.follow _ _ _ _ _) img _
    rw [henter halike]
    exact hreads (fun σ _ next => region.follow maxHops' id target next _) (hfollow maxHops' halike) σ contract
  · refine ⟨.error e, .of_corruption ?_ fun found hleads => ?_, fun maxHops' halike σ _ contract => ?_⟩
    · rcases he with rfl | he
      · exact ⟨_, _, rfl⟩
      · exact he
    · obtain ⟨header, hstands', -⟩ := (hleads.after_redirect hpasses hstands).2.2
      exact absurd hstands' (hnone header)
    · change contract.Answers (region.follow _ _ _ _ _) img _
      rw [henter halike]
      exact hreads (fun σ _ next => region.follow maxHops' id target next _) σ contract

end FollowResolves

/-- Following the redirects from a slot that a chain has led to, by induction on the hops that the limit leaves. -/
private theorem follow_reads (h : region.Fits img) {maxHops : Nat} {id current : RecordId} {header : SlotHeader}
    {passed : List Redirect} (hpasses : region.Passes img id passed current)
    (hstands : region.Stands img current header) (hdistinct : (passed.map (·.id) ++ [current]).Nodup)
    (hlength : passed.length ≤ maxHops) : region.FollowResolves img maxHops id current header passed := by
  induction hn : maxHops - passed.length using Nat.strongRecOn generalizing current header passed with
  | ind n ih =>
    cases header with
    | live capacity length origin => exact follow_ends hpasses hstands hdistinct hlength (.inl rfl)
    | deleted capacity length relocated => exact follow_ends hpasses hstands hdistinct hlength (.inr rfl)
    | padding capacity => exact follow_padding hpasses hstands
    | moved capacity target =>
      by_cases hcycle : target ∈ passed.map (·.id) ++ [current]
      · exact follow_cycle hpasses hstands hcycle
      -- the slots passed are distinct, so there are no more of them than places
      have hplaces := hpasses.length_lt_places hstands hdistinct h.aligned
      rcases Nat.lt_or_ge passed.length maxHops with hlt | hlong
      · refine follow_target h hpasses hstands hcycle hplaces hlt fun next hnext => ?_
        have hmore : (passed ++ [({ id := current, capacity } : Redirect)]).length = passed.length + 1 := by simp
        have hfresh : ((passed ++ [({ id := current, capacity } : Redirect)]).map (·.id) ++ [target]).Nodup := by
          rw [List.map_append]
          exact List.nodup_append.2 ⟨hdistinct, List.nodup_singleton _,
            fun _ hmem _ htarget heq => hcycle (List.mem_singleton.1 htarget ▸ heq ▸ hmem)⟩
        exact ih _ (by omega) (hpasses.trans (.hop hstands (.here target))) hnext hfresh (by omega) rfl
      · exact follow_beyond hpasses hstands hcycle hplaces hlong

theorem resolve_reads (h : region.Fits img) (maxHops : Nat) (id : RecordId) :
    ∃ result, region.Resolves img maxHops id result ∧ ∀ maxHops', region.LimitsAlike maxHops maxHops' →
      Reads (fun σ _ => (region.resolve maxHops' id : SlotM σ Resolution)) img result := by
  rcases enter_reads h id (.notFound id) with ⟨header, hstands, hreads⟩ | ⟨hnone, e, he, hreads⟩
  · obtain ⟨result, hresolves, hfollow⟩ :=
      follow_reads h (.here id) hstands (List.nodup_singleton _) (Nat.zero_le maxHops)
    exact ⟨result, hresolves, fun maxHops' halike =>
      hreads (fun σ _ header => region.follow maxHops' id id header []) (hfollow maxHops' halike)⟩
  · refine ⟨.error e, ?_, fun maxHops' _ => hreads fun σ _ header => region.follow maxHops' id id header []⟩
    rcases he with rfl | he
    · exact .of_notFound fun header hstands => absurd hstands (hnone header)
    · refine .of_corruption he fun found hleads => ?_
      obtain ⟨header, hstands⟩ := hleads.passes.stands_first hleads.stands
      exact absurd hstands (hnone header)

end Region

namespace Session

variable {σ : Type} [PagedStorage σ] {contract : StorageContract σ} {session : Session σ}

/-- Whatever the storage holds and whatever the limit is: an identifier is resolved exactly if redirects lead from it
to a record or a tombstone, no slot is passed twice and the redirects passed are not more than the limit.  A redirect
that leads back, or on behind the limit, or to padding, or to no slot is corruption.  The limit matters only as far as
there are places in the region, so there is an end to it without one; and no write is issued. -/
theorem resolution_follows_redirects (h : InUse contract session) (maxHops : Nat) (id : RecordId) :
    let img := contract.image session.storage
    let region := session.region
    ∃ result, Answers contract (resolveSlot id) { session with maxHops } result ∧
      (∀ found, result = .ok found ↔ region.Leads img id found ∧ found.passed.length ≤ maxHops) ∧
      (∀ passed current capacity target, region.Passes img id passed current →
        region.Stands img current (.moved capacity target) →
          (target ∈ passed.map (·.id) ++ [current] ∨ maxHops ≤ passed.length ∨
            (∃ header, region.Stands img target header ∧ header.state = .padding) ∨
              ∀ header, ¬region.Stands img target header) →
            ∃ offset fault, result = .error (.corruption offset fault)) ∧
      (∀ maxHops', min maxHops (region.stop / alignment) = min maxHops' (region.stop / alignment) →
        Answers contract (resolveSlot id) { session with maxHops := maxHops' } result) ∧
      SlotM.Confined (region.resolve maxHops id : SlotM (Recorder σ) Resolution) fun _ => False := by
  obtain ⟨husable, hsound⟩ := h.sound
  intro img region
  obtain ⟨result, hresolves, hreads⟩ := Region.resolve_reads hsound.fits maxHops id
  have hanswers : ∀ maxHops', region.LimitsAlike maxHops maxHops' →
      Answers contract (resolveSlot id) { session with maxHops := maxHops' } result := by
    intro maxHops' halike
    let limited : Session σ := { session with maxHops := maxHops' }
    have hlimited : contract.Usable limited.storage := husable
    exact answers_onSlots hlimited (hreads maxHops' halike)
  refine ⟨result, hanswers maxHops rfl, hresolves.found,
    fun passed current capacity target hpasses hstands hbroken => ?_, hanswers, region.resolve_confined maxHops id⟩
  cases result with
  | ok found =>
    obtain ⟨hleads, hlength⟩ := (hresolves.found found).1 rfl
    obtain ⟨hmore, hfresh, header, hnext, hpadding⟩ := hleads.after_redirect hpasses hstands
    rcases hbroken with hcycle | hlong | ⟨header', hnext', hpadding'⟩ | hnone
    · exact absurd hcycle hfresh
    · omega
    · exact absurd (hnext.unique hnext' ▸ hpadding') hpadding
    · exact absurd hnext (hnone header)
  | error e =>
    rcases hresolves.failed e rfl with ⟨offset, fault, rfl⟩ | ⟨-, hnone⟩
    · exact ⟨offset, fault, rfl⟩
    · -- the first slot is a redirect, so it is found
      cases hpasses with
      | here => cases hnone _ hstands
      | hop hfirst _ => cases hnone _ hfirst

/-- Two redirects, one to the other, and the record they lead to. -/
def redirectedMemory : Memory :=
  .holding 256 256 <|
    FileHeader.encode { version := 1, pageSize := 256, status := .closed, counters := ⟨3, 0, 2, 3, 8, 128⟩ } ++
      SlotHeader.encode (.moved 8 secondId) ++ List.replicate 8 0 ++
      SlotHeader.encode (.moved 0 laterId) ++ SlotHeader.encode (.live 8 3 none) ++ [97, 98, 99]

theorem resolution_follows_redirects_in_memory : ∃ session,
    openOn redirectedMemory .exactDefault .default = .ok session ∧
      (∃ found, session.region.Leads (Memory.contract.image session.storage) firstId found ∧
        found.passed = [⟨firstId, 8⟩, ⟨secondId, 0⟩] ∧ found.header = .live 8 3 none ∧
          (resolveSlot firstId { session with maxHops := 2 }).1 = .ok found) ∧
      ∃ offset fault, (resolveSlot firstId { session with maxHops := 1 }).1 = .error (.corruption offset fault) := by
  have hrun : (openOn redirectedMemory .exactDefault .default).toOption.map (fun session =>
      (resolveSlot firstId { session with maxHops := 2 }).1.toOption.map fun found => (found.passed, found.header)) =
        some (some ([⟨firstId, 8⟩, ⟨secondId, 0⟩], .live 8 3 none)) := by
    decide +kernel
  have husable : Memory.contract.Usable redirectedMemory := Memory.usable_holding (by decide) rfl (by
    simp [FileHeader.length_encode, SlotHeader.length_encode_header, SlotHeader.headerSize, SlotHeader.fullSize,
      FileHeader.size])
  rcases hopen : openOn redirectedMemory .exactDefault .default with e | session
  · rw [hopen] at hrun
    cases hrun
  · rw [hopen] at hrun
    have huse : InUse Memory.contract session := .opened husable hopen
    rcases hfound : (resolveSlot firstId { session with maxHops := 2 }).1 with e | ⟨last, header, passed⟩
    · simp [Except.toOption, hfound] at hrun
    · obtain ⟨rfl, rfl⟩ : passed = [⟨firstId, 8⟩, ⟨secondId, 0⟩] ∧ header = .live 8 3 none := by
        simpa [Except.toOption, hfound] using hrun
      obtain ⟨_, ⟨-, hanswer⟩, hiff, -⟩ := resolution_follows_redirects huse 2 firstId
      obtain rfl := hfound.symm.trans (hanswer.resolve_right fun hfailed => hfailed.1)
      obtain ⟨hleads, -⟩ := (hiff _).1 rfl
      refine ⟨session, rfl, ⟨_, hleads, rfl, rfl, hfound⟩, ?_⟩
      -- with one redirect passed the next one is too many
      obtain ⟨_, ⟨-, hanswer'⟩, -, hbroken, -⟩ := resolution_follows_redirects huse 1 firstId
      rcases hleads.passes with _ | ⟨hfirst, _ | ⟨hsecond, _⟩⟩
      obtain ⟨offset, fault, rfl⟩ := hbroken _ _ _ _ (.hop hfirst (.here _)) hsecond (.inr (.inl (Nat.le_refl 1)))
      exact ⟨offset, fault, hanswer'.resolve_right fun hfailed => hfailed.1⟩

end Session

end RecordStore
