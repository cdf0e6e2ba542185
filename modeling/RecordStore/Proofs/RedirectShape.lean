import RecordStore.Proofs.Failures
import RecordStore.Proofs.RecordChanges

/-!
# The shape of redirects

As long as no call fails, the slots of every record are in one of three shapes (`StoredRecord.Shaped`): a record that was
never moved, one that was, and a tombstone.  Whichever identifiers the requests go through, two hops lead from any
identifier to a record and one to a tombstone (`redirects_stay_short`).
-/

namespace RecordStore

open StorageView

namespace StoredRecord

/-- The slots of the record as they are if no call has failed, where `header` are the headers of all slots. -/
structure Shaped (record : StoredRecord) (header : RecordId → SlotHeader) : Prop where
  unmoved : ∀ payload, record.payload = some payload → record.former = [] →
    header record.latest = .live record.capacity payload.size none
  moved : ∀ payload, record.payload = some payload → record.former ≠ [] →
    header record.latest = .live record.capacity payload.size (some record.first) ∧
    (∃ capacity, header record.first = .moved capacity record.latest) ∧
    ∀ id ∈ record.former, id ≠ record.first → ∃ capacity, header id = .moved capacity record.first
  deleted : record.payload = none →
    (header record.latest).state = .deleted ∧ (header record.first).state = .deleted ∧
    ∀ id ∈ record.former, (header id).state = .deleted ∨ ∃ capacity, header id = .moved capacity record.first

theorem getLast?_former (record : StoredRecord) (h : record.former ≠ []) :
    record.former.getLast? = some record.first := by
  obtain ⟨first, hfirst⟩ := Option.ne_none_iff_exists'.1 (mt List.getLast?_eq_none_iff.1 h)
  rw [StoredRecord.first, hfirst, Option.getD_some]

end StoredRecord

namespace Layout

variable {fallible : Prop} {layout layout' : Layout} {store : Store} {record : StoredRecord} {id : RecordId}

/-- The first slot of a deleted record is a tombstone. -/
def Buried (layout : Layout) (record : StoredRecord) : Prop :=
  record.payload = none → (layout.header record.first).state = .deleted

theorem Turns.buried (h : Turns fallible layout store layout' record) (hreliable : ¬fallible)
    (hburied : ∀ record ∈ store.records, layout.Buried record) : layout'.Buried record := by
  intro hdead
  cases h with
  | kept hrecord hslots =>
    rw [header, hslots _ record.first_mem]
    exact hburied record hrecord hdead
  | inserted hformer hlive => exact absurd hdead hlive
  | overwritten => cases hdead
  | moved => cases hdead
  | deleted hrecord hlive hformer hfirst => exact hfirst hreliable

/-- Where redirects are in order and records are buried whole, the slots of a record have their shape. -/
theorem Stores.shaped (h : layout.Stores record) (htidy : layout.Tidy record) (hburied : layout.Buried record) :
    record.Shaped layout.header := by
  have hformer : ∀ id ∈ record.former, id ≠ record.first →
      ∀ capacity target, layout.header id = .moved capacity target → target = record.first := by
    intro id hid hne capacity target hmoved
    have htarget := htidy id hid capacity target hmoved
    rwa [if_neg hne] at htarget
  constructor
  · intro payload hlive hnone
    rw [h.header_latest hlive, hnone]
    rfl
  · intro payload hlive hsome
    have hmoved : ∀ id ∈ record.former, ∃ capacity target, layout.header id = .moved capacity target := by
      intro id hid
      rcases h.former id hid with hmoved | ⟨hdead, -⟩
      · exact hmoved
      · rw [hdead] at hlive
        cases hlive
    have hlast := record.getLast?_former hsome
    have hfirst : record.first ∈ record.former := List.mem_of_getLast? hlast
    refine ⟨?_, ?_, fun id hid hne => ?_⟩
    · rw [h.header_latest hlive, hlast]
    · obtain ⟨capacity, target, hheader⟩ := hmoved record.first hfirst
      have htarget := htidy _ hfirst capacity target hheader
      rw [if_pos rfl] at htarget
      exact ⟨capacity, htarget ▸ hheader⟩
    · obtain ⟨capacity, target, hheader⟩ := hmoved id hid
      exact ⟨capacity, hformer id hid hne capacity target hheader ▸ hheader⟩
  · intro hdead
    refine ⟨?_, hburied hdead, fun id hid => ?_⟩
    · obtain ⟨length, hheader⟩ := h.dead hdead
      rw [hheader]
      rfl
    · rcases h.former id hid with ⟨capacity, target, hheader⟩ | ⟨-, capacity, length, hheader⟩
      · by_cases hne : id = record.first
        · left
          rw [hne]
          exact hburied hdead
        · exact .inr ⟨capacity, hformer id hid hne capacity target hheader ▸ hheader⟩
      · left
        rw [hheader]
        rfl

/-- One hop leads to the tombstone of a record that was buried whole. -/
theorem Stores.near_of_buried (h : layout.Stores record) (htidy : layout.Tidy record) (hburied : layout.Buried record)
    (hdead : record.payload = none) (hid : id ∈ record.ids) : layout.Near id 1 := by
  have hfirst : ∀ {n}, layout.Near record.first n := by
    intro n
    apply near_of_redirect?_none
    have hstate := hburied hdead
    cases hheader : layout.header record.first with
    | deleted => rfl
    | live => simp [hheader, SlotHeader.state] at hstate
    | moved => simp [hheader, SlotHeader.state] at hstate
    | padding => simp [hheader, SlotHeader.state] at hstate
  by_cases heq : id = record.first
  · rw [heq]
    exact hfirst
  · rcases List.mem_cons.1 hid with rfl | hformer
    · exact h.near_latest
    · apply h.near_of_former hformer
      intro capacity target hmoved
      have htarget := htidy id hformer capacity target hmoved
      rw [if_neg heq] at htarget
      rw [htarget]
      exact hfirst

end Layout

/-- A chain of redirects is longer than the limit, which is less than two. -/
def ShortLimit (e : StoreError) : Prop :=
  ∃ id limit, limit < 2 ∧ e = .corruption id.offset (.tooManyHops id limit)

namespace Session

variable {σ : Type} [PagedStorage σ] {contract : StorageContract σ} {session : Session σ} {layout : Layout}
  {store : Store} {header : RecordId → SlotHeader} {id last : RecordId} {n : Nat}

/-- In the slots of the session the redirects from `id` are followed to `last` in at most `n` hops. -/
def Finds (session : Session σ) (header : RecordId → SlotHeader) (id last : RecordId) (n : Nat) : Prop :=
  ∃ passed : List Redirect, passed.length ≤ n ∧ ∀ limit, n ≤ limit →
    (session.region.resolve limit id session.storage).1 = .ok { id := last, header := header last, passed }

section Reliable

variable (hreliable : ¬contract.fallible) (husable : contract.Usable session.storage)
  (h : (session.seen contract.toStorageView).Serves layout store)

include hreliable husable h

theorem slotAt_eq (hid : id ∈ layout.ids) :
    (session.region.slotAt id.offset session.storage).1 = .ok (layout.header id) := by
  have htracks : layout.Tracks (contract.image session.storage) store.stop := h.keeps.tracks
  rw [h.region_seen rfl]
  have hanswers : contract.Answers (Region.slotAt { pageSize := _, stop := store.stop } id.offset) _ _ :=
    Region.slotAt_answers (contract.wellFormed husable) htracks hid rfl (htracks.tiles.end_le hid)
  obtain ⟨-, -, heq | ⟨hfallible, -⟩⟩ := hanswers session.storage husable rfl
  · exact heq
  · exact absurd hfallible hreliable

/-- The redirects are followed to where they lead. -/
theorem finds_of_leads {passed : List Redirect} (hleads : layout.Leads id passed last)
    (hpassed : ∀ redirect ∈ passed, redirect.id ∈ layout.ids) (hlast : last ∈ layout.ids)
    (hstate : (layout.header last).state ≠ .padding) (hlength : passed.length ≤ n) :
    session.Finds layout.header id last n := by
  have htracks : layout.Tracks (contract.image session.storage) store.stop := h.keeps.tracks
  refine ⟨passed, hlength, fun limit hlimit => ?_⟩
  rw [h.region_seen rfl]
  have hanswers : contract.Answers (Region.resolve { pageSize := _, stop := store.stop } limit id) _ _ :=
    Region.resolve_answers (contract.wellFormed husable) htracks limit hleads hpassed hlast hstate
  rw [if_pos (Nat.le_trans hlength hlimit)] at hanswers
  obtain ⟨-, -, heq | ⟨hfallible, -⟩⟩ := hanswers session.storage husable rfl
  · exact heq
  · exact absurd hfallible hreliable

/-- From every identifier of a record its latest slot is found, or a tombstone once it is deleted. -/
theorem exists_finds {record : StoredRecord} (hrecord : record ∈ store.records) (hid : id ∈ record.ids)
    (hnear : layout.Near id n) :
    ∃ last ∈ record.ids, session.Finds layout.header id last n ∧ (record.payload ≠ none → last = record.latest) ∧
      (record.payload = none → (layout.header last).state = .deleted) := by
  have hrep := h.keeps.represents
  have hstores := hrep.stores record hrecord
  obtain ⟨passed, last, hleads, hlast, hpassed, -, hlive, hdead⟩ := hstores.leads hid
  refine ⟨last, hlast, ?_, hlive, fun hnone => ?_⟩
  · apply finds_of_leads hreliable husable h hleads
    · intro redirect hredirect
      exact hrep.mem_ids hrecord (List.mem_cons_of_mem _ (hpassed redirect hredirect))
    · exact hrep.mem_ids hrecord hlast
    · exact hstores.state_ne_padding hlast
    · exact hnear passed last hleads
  · obtain ⟨capacity, length, relocated, hheader⟩ := hdead hnone
    rw [hheader]
    rfl

end Reliable

/-- As long as no call fails, a run goes on with redirects in order and deleted records buried whole. -/
theorem run_tidy (hreliable : ¬contract.fallible) (husable : contract.Usable session.storage)
    (h : (session.seen contract.toStorageView).Serves layout store)
    (hclean : (contract.image session.storage).Clean layout store)
    (hburied : ∀ record ∈ store.records, layout.Buried record) (events : List Event) :
    ∃ later last,
      Explains ShortLimit store events (runAll (handle contract.reopen) events session).1 last ∧
      contract.Usable (runAll (handle contract.reopen) events session).2.storage ∧
      ((runAll (handle contract.reopen) events session).2.seen contract.toStorageView).Serves later last ∧
      (contract.image (runAll (handle contract.reopen) events session).2.storage).Clean later last ∧
      ∀ record ∈ last.records, later.Buried record := by
  induction events generalizing session layout store with
  | nil => exact ⟨layout, store, .nil, husable, h, hclean, hburied⟩
  | cons event rest ih =>
    have hensues := handle_ensues husable h event fun _ => hclean.blank
    rw [runAll_cons]
    generalize (handle contract.reopen event session).1 = result at hensues ⊢
    generalize (handle contract.reopen event session).2 = session' at hensues ⊢
    cases hensues with
    | lost _ hfallible => exact absurd hfallible hreliable
    | @served _ _ layout' store' husable' hserves _ houtcome hclean' _ _ htransition =>
      have hkeeps : (contract.image session.storage).Keeps layout store .opened := h.keeps
      -- without failures all redirects of a record are buried with it
      have hburied' : ∀ record ∈ store'.records, layout'.Buried record :=
        fun record hrecord => (htransition.turns hkeeps hrecord).buried hreliable hburied
      obtain ⟨later, last, hexplains, hlast⟩ := ih husable' hserves (hclean' hclean hreliable) hburied'
      refine ⟨later, last, .cons (houtcome.mono fun e he => ?_) hexplains, hlast⟩
      cases he with
      | io hfallible => exact absurd hfallible hreliable
      | @hops record id _ passed hrecord hid hleads hlong =>
        have hnear := hclean.near hkeeps.represents record hrecord id hid _ _ hleads
        exact ⟨id, session.maxHops, Nat.lt_of_lt_of_le hlong hnear, rfl⟩

/-- After any run from a blank storage in which no call fails, the slots of every record have their shape.  Two hops lead
from each of its identifiers to the record, and one to a tombstone once it is deleted.  Only a limit of less than two
hops makes an event fail that the store would not refuse. -/
theorem redirects_stay_short (hreliable : ¬contract.fallible) {storage : σ} (husable : contract.Usable storage)
    (hblank : (contract.image storage).Blank) (policy : CapacityPolicy) (options : Options) (events : List Event) :
    ∃ session, openOn storage policy options = .ok session ∧
      let run := runAll (handle contract.reopen) events session
      ∃ (store : Store) (header : RecordId → SlotHeader),
        Explains ShortLimit (.empty (contract.image storage).pageSize policy) events run.1 store ∧
        store.ids.Nodup ∧ (∀ id, id ∈ store.ids ↔ id ∈ handedOut events run.1) ∧
        (∀ id ∈ store.ids, (run.2.region.slotAt id.offset run.2.storage).1 = .ok (header id)) ∧
        ∀ record ∈ store.records, record.Shaped header ∧
          (record.payload ≠ none → ∀ id ∈ record.ids, run.2.Finds header id record.latest 2) ∧
          (record.payload = none → ∀ id ∈ record.ids, ∃ last ∈ record.ids,
            (header last).state = .deleted ∧ run.2.Finds header id last 1) := by
  obtain ⟨session, hopen, husable', hserves, -, hzeros⟩ :=
    (openOn_blank husable hblank policy options).exists_session fun e img hfailed => hreliable hfailed.1
  have hclean : (contract.image session.storage).Clean .empty (.empty (contract.image storage).pageSize policy) :=
    .empty hzeros
  obtain ⟨layout, store, hexplains, hlastUsable, hlast, hlastClean, hburied⟩ :=
    run_tidy hreliable husable' hserves hclean (fun record hrecord => absurd hrecord List.not_mem_nil) events
  have hrep := hlast.keeps.represents
  refine ⟨session, hopen, store, layout.header, hexplains, hrep.distinct, fun id => ?_, fun id hid => ?_,
    fun record hrecord => ⟨?_, fun hlive id hid => ?_, fun hdead id hid => ?_⟩⟩
  · rw [hexplains.mem_ids]
    exact or_iff_right List.not_mem_nil
  · exact slotAt_eq hreliable hlastUsable hlast ((hrep.mem id).1 hid).1
  · exact (hrep.stores record hrecord).shaped (hlastClean.tidy record hrecord) (hburied record hrecord)
  · have hnear := hlastClean.near hrep record hrecord id hid
    obtain ⟨last, -, hfinds, heq, -⟩ := exists_finds hreliable hlastUsable hlast hrecord hid hnear
    rwa [heq hlive] at hfinds
  · have hnear := (hrep.stores record hrecord).near_of_buried (hlastClean.tidy record hrecord) (hburied record hrecord)
      hdead hid
    obtain ⟨last, hmem, hfinds, -, hstate⟩ := exists_finds hreliable hlastUsable hlast hrecord hid hnear
    exact ⟨last, hmem, hstate hdead, hfinds⟩

/-- Behind a third slot that takes 40 bytes. -/
def fourthId : RecordId := ⟨20, by decide, by decide⟩

/-- Two records: one is moved twice, the second time through the identifier that the first move gave it, and the other
one is deleted. -/
def shapedEvents : List Event :=
  [.request (.insert ⟨#[1]⟩), .request (.update firstId ⟨Array.replicate 9 1⟩),
    .request (.update secondId ⟨Array.replicate 17 1⟩), .reopen .bucketsDefault .default,
    .request (.insert ⟨#[2]⟩), .request (.delete fourthId), .recover]

def shapedResults : List (Except StoreError Reply) :=
  [.ok (.id firstId), .ok (.id secondId), .ok (.id thirdId), .ok .done, .ok (.id fourthId), .ok .done,
    .ok (.counters ⟨4, 1, 2, 17, 17, 208⟩)]

private theorem run_shapedEvents : (openOn (Memory.zeros 256 0) .exactDefault .default).toOption.map (fun session =>
    (runAll (handle Memory.contract.reopen) shapedEvents session).1) = some shapedResults := by
  decide +kernel

theorem redirects_stay_short_in_memory : ∃ session, openOn (Memory.zeros 256 0) .exactDefault .default = .ok session ∧
    let run := runAll (handle Memory.contract.reopen) shapedEvents session
    ∃ (store : Store) (header : RecordId → SlotHeader),
      Explains ShortLimit (.empty 256 .exactDefault) shapedEvents shapedResults store ∧
      (run.2.region.slotAt firstId.offset run.2.storage).1 = .ok (header firstId) ∧
      ∀ id ∈ [firstId, secondId, thirdId, fourthId], ∃ record ∈ store.records, id ∈ record.ids ∧
        record.Shaped header := by
  have hblank : (Memory.zeros 256 0).image.Blank := ⟨⟨by decide, by decide, by decide⟩, fun _ _ => rfl⟩
  obtain ⟨session, hopen, store, header, hexplains, -, hids, hslots, hshaped⟩ :=
    redirects_stay_short (show ¬Memory.contract.fallible from id) (Memory.usable_zeros (by decide) rfl) hblank
      .exactDefault .default shapedEvents
  have hrun := run_shapedEvents
  rw [hopen] at hrun
  have hresults : (runAll (handle Memory.contract.reopen) shapedEvents session).1 = shapedResults := Option.some.inj hrun
  rw [hresults] at hexplains hids
  have hgiven : ∀ id ∈ [firstId, secondId, thirdId, fourthId], id ∈ store.ids := by
    intro id hid
    rw [hids]
    revert id
    decide
  refine ⟨session, hopen, store, header, hexplains, hslots _ (hgiven _ (by decide)), fun id hid => ?_⟩
  obtain ⟨record, hrecord, hmem⟩ := Store.mem_ids.1 (hgiven id hid)
  exact ⟨record, hrecord, hmem, (hshaped record hrecord).1⟩

end Session

end RecordStore
