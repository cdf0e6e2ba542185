import RecordStore.Proofs.Serving
import RecordStore.Session.Records
import RecordStore.Session.Scan

/-!
# Lookups

What the operations answer that only look: an identifier leads to the latest slot of its record, or to a tombstone of
a deleted record, or is not found (`resolveSlot_performs`); reading answers the payload that the store has for it.
-/

namespace RecordStore

open StorageView

namespace StorageContract

variable {σ α : Type} [PagedStorage σ] (contract : StorageContract σ)

/-- What is started in a session on a usable storage starts from a well-formed image. -/
theorem performs_of_wellFormed {act : SessionM σ α} {before : Session Image}
    {post : Except StoreError α → Session Image → Prop}
    (h : before.storage.WellFormed → Session.Performs contract.toStorageView act before post) :
    Session.Performs contract.toStorageView act before post := by
  rintro session husable rfl
  exact h (contract.wellFormed husable) session husable rfl

end StorageContract

namespace Session

variable {σ : Type} [PagedStorage σ] {contract : StorageContract σ} {session : Session Image} {layout : Layout}
  {store : Store}

/-- Resolution of an identifier of a record. -/
private theorem resolve_of_mem (h : session.Serves layout store) (hwf : session.storage.WellFormed) {id : RecordId}
    {record : StoredRecord} (hrecord : record ∈ store.records) (hid : id ∈ record.ids)
    {post : Except StoreError Resolution → Session Image → Prop}
    (hok : ∀ passed last, layout.Leads id passed last →
      (∀ redirect ∈ passed, redirect.id ∈ record.former ∧ HasRedirect layout redirect) →
      post (.ok { id := last, header := layout.header last, passed }) session)
    (hexcuse : ∀ e, Excuse contract.toStorageView session layout store e → post (.error e) session) :
    contract.Runs (Region.resolve { pageSize := session.storage.pageSize, stop := store.stop } session.maxHops id)
      session.storage fun result img => post result { session with storage := img } := by
  have hrep := h.keeps.represents
  have hstores := hrep.stores record hrecord
  obtain ⟨passed, last, hleads, hlast, hformer, -⟩ := hstores.leads hid
  have hredirects : ∀ redirect ∈ passed, redirect.id ∈ record.former ∧ HasRedirect layout redirect := by
    intro redirect hredirect
    have hmem := hformer redirect hredirect
    exact ⟨hmem, hrep.mem_ids hrecord (List.mem_cons_of_mem _ hmem), hleads.header_passed hredirect⟩
  refine (Region.resolve_answers hwf h.keeps.tracks session.maxHops hleads
    (fun redirect hredirect => (hredirects redirect hredirect).2.1) (hrep.mem_ids hrecord hlast)
    (hstores.state_ne_padding hlast)).mono ?_
  rintro result _ ⟨rfl, hresult | ⟨hfallible, cause, rfl⟩⟩
  · rcases Nat.lt_or_ge session.maxHops passed.length with hlong | hshort
    · rw [if_neg (by omega)] at hresult
      rw [hresult]
      exact hexcuse _ (.hops hrecord hid hleads hlong)
    · rw [if_pos hshort] at hresult
      rw [hresult]
      exact hok passed last hleads hredirects
  · exact hexcuse _ (.io hfallible cause)

/-- Where an identifier leads. -/
theorem resolveSlot_performs (h : session.Serves layout store) (id : RecordId)
    {post : Except StoreError Resolution → Session Image → Prop}
    (hlive : ∀ record payload passed, store.live id = .ok (record, payload) →
      (∀ redirect ∈ passed, redirect.id ∈ record.former ∧ HasRedirect layout redirect) →
      post (.ok { id := record.latest, header := .live record.capacity payload.size record.former.getLast?, passed })
        session)
    (hdead : ∀ last capacity length relocated passed, store.live id = .error (.deleted id) →
      post (.ok { id := last, header := .deleted capacity length relocated, passed }) session)
    (hmissing : store.live id = .error (.notFound id) → post (.error (.notFound id)) session)
    (hexcuse : ∀ e, Excuse contract.toStorageView session layout store e → post (.error e) session) :
    Performs contract.toStorageView (resolveSlot id) session post := by
  refine contract.performs_of_wellFormed fun hwf => ?_
  unfold resolveSlot
  refine Performs.get_bind fun actual hactual => Performs.onSlots ?_
  have hmaxHops : actual.maxHops = session.maxHops := by
    rw [← hactual]
    rfl
  rw [h.region_seen hactual, hmaxHops]
  rcases store.live_cases id with ⟨record, payload, hfound⟩ | ⟨hfound, record, hrecord, hid, hpayload⟩ | ⟨hfound, hmem⟩
  · obtain ⟨hrecord, hid, hpayload⟩ := Store.live_eq_ok hfound
    refine resolve_of_mem h hwf hrecord hid (fun passed last hleads hpassed => ?_) hexcuse
    have hstores := h.keeps.represents.stores record hrecord
    obtain ⟨_, last', hleads', -, -, -, hlast, -⟩ := hstores.leads hid
    have hlatest : last = record.latest :=
      ((hleads'.unique hleads).2).trans (hlast (by rw [hpayload]; nofun))
    rw [hlatest, hstores.header_latest hpayload]
    exact hlive record payload passed hfound hpassed
  · -- any tombstone of the record may be where the redirects end
    refine resolve_of_mem h hwf hrecord hid (fun passed last hleads hpassed => ?_) hexcuse
    obtain ⟨_, last', hleads', -, -, -, -, hlast⟩ := (h.keeps.represents.stores record hrecord).leads hid
    obtain ⟨capacity, length, relocated, hheader⟩ := hlast hpayload
    rw [(hleads'.unique hleads).2, hheader]
    exact hdead last' capacity length relocated passed hfound
  · -- no record has the identifier, so the slot that it names is padding, if there is one
    have hpadding : id ∈ layout.ids → (layout.header id).state = .padding := by
      intro hid
      by_contra hstate
      exact hmem ((h.keeps.represents.mem id).2 ⟨hid, hstate⟩)
    refine (Region.resolve_answers_notFound hwf h.keeps.tracks session.maxHops hpadding).mono ?_
    rintro result _ ⟨rfl, rfl | ⟨hfallible, cause, rfl⟩⟩
    · exact hmissing hfound
    · exact hexcuse _ (.io hfallible cause)

/-- An operation on a live record, which the store refuses if it refuses the lookup. -/
theorem resolveSlot_bind_performs (h : session.Serves layout store) (id : RecordId) {α : Type}
    {next : Resolution → SessionM σ α} {scope : Except StoreError α → Scope}
    {expected : Except StoreError (α × Store)}
    (hrefused : ∀ e, store.live id = .error e → expected = .error e)
    (hdead : ∀ last capacity length relocated passed,
      next { id := last, header := .deleted capacity length relocated, passed } = throw (.deleted id))
    (hlive : ∀ record payload passed, store.live id = .ok (record, payload) →
      (∀ redirect ∈ passed, redirect.id ∈ record.former ∧ HasRedirect layout redirect) →
      Performs contract.toStorageView
        (next { id := record.latest, header := .live record.capacity payload.size record.former.getLast?, passed })
        session (Follows contract.toStorageView scope session layout store expected)) :
    Performs contract.toStorageView (resolveSlot id >>= next) session
      (Follows contract.toStorageView scope session layout store expected) := by
  refine Performs.step (resolveSlot_performs h id hlive (fun last capacity length relocated passed hfound => ?_)
    (fun hfound => ?_) fun e hexcuse => ?_)
  · dsimp only
    rw [hdead]
    refine Performs.throw (Follows.unchanged h ?_)
    rw [hrefused _ hfound]
    exact .refused
  · refine Follows.unchanged h ?_
    rw [hrefused _ hfound]
    exact .refused
  · exact Follows.unchanged h (.failed hexcuse)

theorem resolve_performs (h : session.Serves layout store) (id : RecordId) :
    Performs contract.toStorageView (resolve id) session
      (Follows contract.toStorageView (fun _ => .slots) session layout store
        ((store.live id).map fun found => (found.1.latest, store))) := by
  have hrefused : ∀ e, store.live id = .error e →
      (store.live id).map (fun found => (found.1.latest, store)) = .error e := fun e hfound => by
    rw [hfound]
    rfl
  unfold resolve
  refine Performs.step (Performs.ensureOpen h.opened ?_)
  refine resolveSlot_bind_performs h id hrefused (fun _ _ _ _ _ => rfl) fun record payload passed hfound _ => ?_
  refine Performs.pure (Follows.unchanged h ?_)
  rw [hfound]
  exact .done

theorem read_performs (h : session.Serves layout store) (id : RecordId) :
    Performs contract.toStorageView (read id) session
      (Follows contract.toStorageView (fun _ => .slots) session layout store
        ((store.live id).map fun found => (found.2, store))) := by
  have hrefused : ∀ e, store.live id = .error e →
      (store.live id).map (fun found => (found.2, store)) = .error e := fun e hfound => by
    rw [hfound]
    rfl
  unfold read
  refine Performs.step (Performs.ensureOpen h.opened ?_)
  refine resolveSlot_bind_performs h id hrefused (fun _ _ _ _ _ => rfl) fun record payload passed hfound _ => ?_
  obtain ⟨hrecord, -, hpayload⟩ := Store.live_eq_ok hfound
  have hstores := h.keeps.represents.stores record hrecord
  have hmem := h.keeps.represents.mem_ids hrecord (List.mem_cons_self : record.latest ∈ record.ids)
  have hread := h.keeps.tracks.read_payload hmem
  rw [hstores.header_latest hpayload, hstores.live payload hpayload] at hread
  change session.storage.read (record.latest.offset + SlotHeader.fullSize) payload.size = payload at hread
  have hbound : record.latest.offset + SlotHeader.fullSize + payload.size ≤ session.storage.size := by
    have hbytes := h.keeps.tracks.bytes_end_le hmem
    have hend := h.keeps.tracks.tiles.end_le hmem
    have hstop := h.keeps.tracks.bound
    rw [Slot.size_bytes, hstores.live payload hpayload] at hbytes
    change record.latest.offset + (SlotHeader.fullSize + payload.size) ≤ _ at hbytes
    omega
  refine Performs.onSlots ((contract.read_answers hbound).mono ?_)
  rintro result _ ⟨rfl, rfl | ⟨hfallible, cause, rfl⟩⟩
  · refine Follows.unchanged h ?_
    rw [hfound, hread]
    exact .done
  · exact Follows.unchanged h (.failed (.io hfallible cause))

/-- A scan agrees with the counters of the session, whatever went before. -/
theorem countSlots_performs (h : session.Serves layout store) :
    Performs contract.toStorageView countSlots session fun result session' => session' = session ∧
      (result = .ok session.counters ∨ contract.fallible ∧ ∃ cause, result = .error (.io cause)) := by
  refine contract.performs_of_wellFormed fun hwf => ?_
  unfold countSlots
  refine Performs.step (Performs.ensureOpen h.opened ?_)
  refine Performs.get_bind fun actual hactual => Performs.onSlots ?_
  have hcounters : session.counters = { layout.totals layout.ids with size := store.stop } := by
    rw [h.counters_eq, h.keeps.totals_eq]
    rfl
  rw [h.region_seen hactual, hcounters]
  refine (Region.count_answers hwf h.keeps.tracks).mono ?_
  rintro result _ ⟨rfl, hresult⟩
  exact ⟨rfl, hresult⟩

end Session

end RecordStore
