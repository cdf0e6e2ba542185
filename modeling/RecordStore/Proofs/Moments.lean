import RecordStore.Proofs.CachedStorage
import RecordStore.Proofs.Patchwork
import RecordStore.Proofs.Uniform

/-!
# Moments of a run

What the disk holds of a run that goes on behind a cache.  Between two flushes every page on disk is from some moment
of the run since the last one, in the middle of an operation perhaps (`lags_handle`).  At such a moment the image holds
the records that the store had before the operation or has after it, and no slot that leads anywhere else
(`Advances.past`).
-/

namespace RecordStore

open Bytes StorageView

namespace Image

variable {img : Image}

/-- The image at a moment when the records were those of `store`; the records without new identifiers since `old` was
all there was have their redirects in order. -/
structure Depicts (img : Image) (header : FileHeader) (old : List RecordId) (layout : Layout) (stop : Nat)
    (store : Store) : Prop where
  version : img.Version header (· ∈ store.ids) layout stop
  stores : ∀ record ∈ store.records, layout.Stores record ∧ record.ids ⊆ layout.ids
  settled : ∀ record ∈ store.records, record.ids ⊆ old → layout.Tidy record

/-- The image is from a run that went through `stores` since `header` was written, when `old` were the identifiers. -/
def Past (header : FileHeader) (old : List RecordId) (stores : Store → Prop) (img : Image) : Prop :=
  img.pageSize = header.pageSize ∧ ∃ layout stop store, stores store ∧ img.Depicts header old layout stop store

section Depicts

variable {header : FileHeader} {old : List RecordId} {base : Layout} {stop : Nat} {store : Store}
  (hholds : img.Holds 0 (ofList header.encode)) (hrep : base.Represents store.records)
  (hboundary : base.Boundary stop header.counters.size)
  (htidy : ∀ record ∈ store.records, record.ids ⊆ old → base.Tidy record)

include hholds hrep hboundary htidy

/-- What is not padding is a slot of a record, and leads to another one. -/
theorem Depicts.blank (hbase : base.Tracks img stop) (hblank : img.BlankFrom stop) :
    img.Depicts header old base stop store where
  version := ⟨hholds, hbase, hblank, hboundary, fun id hid hstate => .inl ((hrep.mem id).2 ⟨hid, hstate⟩),
    fun _ hid _ _ hmoved => hrep.mem_target hid hmoved⟩
  stores record hrecord := ⟨hrep.stores record hrecord, fun _ hid => hrep.mem_ids hrecord hid⟩
  settled := htidy

/-- Behind the slots stands a copy that nothing leads to yet. -/
theorem Depicts.copy {copy first : RecordId} {capacity length : Nat} {payload : ByteArray}
    (hbase : base.Tracks img stop) (hcopy : copy.offset = stop)
    (htracks : (base.push copy { header := .live capacity length (some first), payload }).Tracks img
      (stop + (SlotHeader.live capacity length (some first)).slotSize))
    (hblank : img.BlankFrom (stop + (SlotHeader.live capacity length (some first)).slotSize)) :
    img.Depicts header old (base.push copy { header := .live capacity length (some first), payload })
      (stop + (SlotHeader.live capacity length (some first)).slotSize) store := by
  have hfresh : copy ∉ base.ids := fun hmem => absurd (hbase.offset_lt hmem) (by omega)
  have hne : ∀ {id}, id ∈ base.ids → id ≠ copy := by
    rintro id hid rfl
    exact hfresh hid
  have hle := (hboundary.bounds hbase).2.1
  refine ⟨⟨hholds, htracks, hblank, hboundary.push hcopy, fun id hid hstate => ?_, fun id hid c target hmoved => ?_⟩,
    fun record hrecord => ⟨hrep.stores_push hfresh hrecord, fun id hid => ?_⟩, fun record hrecord hids => ?_⟩
  · rcases List.mem_append.1 hid with hid | hid
    · rw [Layout.header_push_of_ne _ _ (hne hid)] at hstate
      exact .inl ((hrep.mem id).2 ⟨hid, hstate⟩)
    · obtain rfl := List.mem_singleton.1 hid
      exact .inr ⟨by omega, capacity, length, first, Layout.header_push_self ..⟩
  · rcases List.mem_append.1 hid with hid | hid
    · rw [Layout.header_push_of_ne _ _ (hne hid)] at hmoved
      exact hrep.mem_target hid hmoved
    · obtain rfl := List.mem_singleton.1 hid
      rw [Layout.header_push_self] at hmoved
      cases hmoved
  · exact List.mem_append_left _ (hrep.mem_ids hrecord hid)
  · refine (htidy record hrecord hids).congr fun id hid => Layout.header_push_of_ne _ _ (hne ?_)
    exact hrep.mem_ids hrecord (List.mem_cons_of_mem _ hid)

end Depicts

/-- Redirects stay in one record of the moment. -/
theorem Depicts.exists_moved {header : FileHeader} {old : List RecordId} {layout : Layout} {stop : Nat} {store : Store}
    (h : img.Depicts header old layout stop store) {id target : RecordId} {capacity : Nat} (hid : id ∈ layout.ids)
    (hmoved : layout.header id = .moved capacity target) :
    ∃ record ∈ store.records, id ∈ record.former ∧ target ∈ record.ids := by
  have hstate : (layout.header id).state ≠ .padding := by
    rw [hmoved]
    nofun
  rcases h.version.accounted id hid hstate with hmem | ⟨-, capacity, length, first, hlive⟩
  · obtain ⟨record, hrecord, hid'⟩ := Store.mem_ids.1 hmem
    have hstores := (h.stores record hrecord).1
    exact ⟨record, hrecord, hstores.mem_former hid' hmoved, hstores.target_mem hid' hmoved⟩
  · rw [hmoved] at hlive
    cases hlive

/-- An image holds one file header. -/
theorem Holds.header_unique {header header' : FileHeader} (h : img.Holds 0 (ofList header.encode))
    (h' : img.Holds 0 (ofList header'.encode)) (hvalid : header.Valid) (hvalid' : header'.Valid) :
    header' = header := by
  have hencode : header.encode = header'.encode := (read_header h).symm.trans (read_header h')
  have hdecode := FileHeader.decode_encode hvalid
  rw [hencode, FileHeader.decode_encode hvalid'] at hdecode
  exact Option.some.inj (Except.ok.inj hdecode)

end Image

namespace Session

variable {session session' : Session Image} {layout layout' : Layout} {store store' : Store} {header : FileHeader}
  {old : List RecordId} {stores : Store → Prop} {fallible : Prop}

/-- An operation leaves such an image, wherever it is cut off. -/
theorem Advances.past {scope : Scope} (h : Advances fallible scope session session' layout layout' store store')
    (hscope : scope.start = FileHeader.size) (hclean : session.storage.Clean layout store)
    (hholds : session.storage.Holds 0 (ofList header.encode)) (hvalid : header.Valid) (hstores : stores store')
    (hold : old ⊆ layout.ids) :
    session'.storage.Past header old stores := by
  have hkeeps := h.serves.keeps
  have hrep := hkeeps.represents
  have hholds' : session'.storage.Holds 0 (ofList header.encode) :=
    hholds.congr fun i _ hi => h.head i (by simpa [hscope] using hi)
  obtain ⟨header', hheader', -, hdescribes⟩ := hkeeps.header
  obtain rfl := hholds'.header_unique hheader' hvalid hdescribes.valid
  have hpageSize : session'.storage.pageSize = header'.pageSize := hkeeps.pageSize_eq.trans hdescribes.pageSize.symm
  obtain ⟨base, stop, hpadded, hbase, hends⟩ := (h.worn hclean).tail
  have hrep' := hpadded.represents hkeeps.tracks hrep
  have hboundary := hpadded.boundary hdescribes.boundary
  have htidy : ∀ record ∈ store'.records, record.ids ⊆ old → base.Tidy record := by
    intro record hrecord hids
    have hsettled := h.settled hclean record hrecord fun id hid => hold (hids hid)
    refine hsettled.congr fun id hid => ?_
    rw [Layout.header, hpadded.slot_eq hkeeps.tracks (hrep.mem_ids hrecord (List.mem_cons_of_mem _ hid)), Layout.header]
  refine ⟨hpageSize, ?_⟩
  cases hends with
  | blank hblank => exact ⟨base, stop, store', hstores, .blank hholds' hrep' hboundary htidy hbase hblank⟩
  | copy hcopy htracks hblank =>
    exact ⟨_, _, store', hstores, .copy hholds' hrep' hboundary htidy hbase hcopy htracks hblank⟩

/-- So is what a session has that serves a store. -/
theorem Serves.past (h : session.Serves layout store) (hclean : session.storage.Clean layout store)
    (hholds : session.storage.Holds 0 (ofList header.encode)) (hvalid : header.Valid) (hstores : stores store)
    (hold : old ⊆ layout.ids) : session.storage.Past header old stores :=
  (show Advances False .slots session session layout layout store store from .refl h).past rfl hclean hholds hvalid
    hstores hold

end Session

/-! ### Behind a cache -/

theorem Store.start_scope {α : Type} (store : Store) {event : Event} (h : ¬event.Syncs) (result : Except StoreError α) :
    (store.scope event result).start = FileHeader.size := by
  cases event with
  | request request =>
    cases request with
    | flush => exact absurd trivial h
    | _ => rfl
  | count => rfl
  | recover => exact absurd trivial h
  | reopen policy options => exact absurd trivial h

namespace CachedFile

variable {file : CachedFile}

private theorem run_eq_of_not_bound {α : Type} (hready : file.Ready) {offset length : Nat}
    (h : ¬offset + length ≤ file.size) (next : M α) :
    ((do ensureOpen; checkBounds offset length; next : M α) file).2 = file := by
  have hbounds : checkBounds offset length file = (.error (.outOfBounds offset length file.size), file) := by
    unfold checkBounds
    rw [bind_apply]
    change (if file.size < offset + length then _ else _ : M Unit) file = _
    rw [if_pos (Nat.not_le.1 h)]
    rfl
  rw [ensureOpen_bind hready.opened, bind_apply, hbounds]

/-- A call makes something of the file, or leaves it alone because it goes beyond it.  The file becomes no longer than
it has to be. -/
theorem run_turnsInto (hready : file.Ready) (hlarge : minPageSize ≤ file.pageSize) (call : SlotCall) :
    (call.run file).2 = file ∨ file.TurnsInto (call.run file).2 (call.run file).2.image ∧
      (call.run file).2.pageSize = file.pageSize ∧ (call.run file).2.size ≤ max file.size (reach + file.pageSize) := by
  -- what is left to say once it is known what becomes of the file
  have hdone : ∀ {file' : CachedFile} {img : Image}, file.TurnsInto file' img → img.pageSize = file.pageSize →
      img.size ≤ max file.size (reach + file.pageSize) → file.TurnsInto file' file'.image ∧
        file'.pageSize = file.pageSize ∧ file'.size ≤ max file.size (reach + file.pageSize) :=
    fun hturns hpageSize hsize =>
      ⟨hturns.image.symm ▸ hturns, hturns.pageSize_eq.trans hpageSize, hturns.size_eq ▸ hsize⟩
  have hsame : file.size ≤ max file.size (reach + file.pageSize) := Nat.le_max_left ..
  cases call with
  | read offset length =>
    by_cases hbound : offset + length ≤ file.size
    · obtain ⟨file', happly, hturns⟩ := read_turnsInto hready hbound
      have hfile : ((SlotCall.read offset length).run file).2 = file' := congrArg Prod.snd happly
      rw [hfile]
      exact .inr (hdone hturns rfl hsame)
    · exact .inl (run_eq_of_not_bound hready hbound _)
  | write offset data =>
    by_cases hbound : offset + data.size ≤ file.size
    · obtain ⟨file', happly, hturns⟩ := write_turnsInto hready hbound
      have hfile : ((SlotCall.write offset data).run file).2 = file' := congrArg Prod.snd happly
      rw [hfile]
      exact .inr (hdone hturns rfl hsame)
    · exact .inl (run_eq_of_not_bound hready hbound _)
  | size => exact .inl (congrArg Prod.snd (size_apply hready.opened))
  | grow target h =>
    have hroom : target ≤ 2 ^ 32 * file.pageSize := by
      unfold minPageSize at hlarge
      unfold reach at h
      omega
    obtain ⟨file', happly, hturns⟩ := grow_turnsInto hready hroom
    have hfile : ((SlotCall.grow target h).run file).2 = file' := congrArg Prod.snd happly
    rw [hfile]
    refine .inr (hdone hturns rfl (Nat.max_le.2 ⟨hsame, Nat.le_trans ?_ (Nat.le_max_right ..)⟩))
    have hround := Nat.div_mul_le_self (target + file.pageSize - 1) file.pageSize
    change (target + file.pageSize - 1) / file.pageSize * file.pageSize ≤ _
    omega
  | flush =>
    obtain ⟨file', happly, hturns, -⟩ := flush_turnsInto hready
    have hfile : (SlotCall.flush.run file).2 = file' := congrArg Prod.snd happly
    rw [hfile]
    exact .inr (hdone hturns rfl hsame)

theorem run_becomes (husable : file.Usable) (call : SlotCall) :
    (call.run file).2 = file ∨ file.Becomes (call.run file).2 (call.run file).2.image := by
  refine (run_turnsInto husable.ready husable.large call).imp_right ?_
  rintro ⟨hturns, hpageSize, hsize⟩
  exact hturns.becomes husable hpageSize (Nat.le_trans hsize (Nat.max_le.2 ⟨husable.reached, Nat.le_refl _⟩))

/-- The file header stands on one page. -/
theorem Lags.header {version : Image → Prop} (h : file.Lags version) (hlarge : minPageSize ≤ file.pageSize) :
    ∃ img, version img ∧ ∀ i < FileHeader.size, file.onDisk.byteAt i = img.byte i := by
  obtain ⟨img, hversion, hbytes⟩ := h 0
  have hlow : FileHeader.size ≤ file.pageSize := Nat.le_trans (by decide) hlarge
  exact ⟨img, hversion, fun i hi => hbytes i (Nat.div_eq_of_lt (Nat.lt_of_lt_of_le hi hlow))⟩

/-- Pages on disk are from versions after a dialogue at whose moments the file is a version. -/
theorem Lags.dialogue {α : Type} {dialogue : Dialogue α} {version : Image → Prop} (h : file.Lags version)
    (hmoments : ∀ moment ∈ dialogue.moments file, moment.Usable ∧ version moment.image) :
    (dialogue.run file).2.Lags version := by
  refine Dialogue.run_induction (Q := fun file => file.Lags version) hmoments
    (fun call file hbefore hafter hlags => ?_) h
  rcases run_becomes hbefore.1 call with hsame | hbecomes
  · rw [hsame]
    exact hlags
  · exact hbecomes.lags _ hbefore.2 hafter.2 hlags

end CachedFile

namespace Session

variable {frames : Nat} {hframes : 1 ≤ frames} {session : Session CachedFile} {layout : Layout} {store : Store}
  {header : FileHeader} {old : List RecordId} {stores : Store → Prop} {event : Event}

/-- At every moment of work on slots, the storage is as such work leaves it that goes as far as that and then fails. -/
theorem moments_run {σ α : Type} [PagedStorage σ] {contract : StorageContract σ} {storage : σ}
    {act : ∀ (σ : Type) [PagedStorage σ], SlotM σ α} (huniform : Uniform act) (husable : contract.Usable storage)
    {post : Except StoreError α → Image → Prop}
    (hruns : (Unreliable.contract contract).Runs (act (Unreliable σ)) (contract.image storage) post) :
    ∃ dialogue : Dialogue (Except StoreError α), act σ storage = dialogue.run storage ∧
      ∀ moment ∈ dialogue.moments storage, contract.Usable moment ∧ ∃ result, post result (contract.image moment) := by
  obtain ⟨dialogue, hdialogue⟩ := huniform
  refine ⟨dialogue, hdialogue σ storage, fun moment hmoment => ?_⟩
  obtain ⟨n, hn⟩ := Dialogue.exists_cutOff hmoment
  obtain ⟨husable', hpost⟩ := hruns _ (Unreliable.usable_cutOff husable n) rfl
  rw [hdialogue] at husable' hpost
  obtain ⟨hinner, -⟩ := husable'
  rw [← hn]
  exact ⟨hinner, _, hpost⟩

/-- The same of an operation. -/
theorem moments_perform {σ α : Type} [PagedStorage σ] {contract : StorageContract σ} {session : Session σ}
    {act : ∀ (σ : Type) [PagedStorage σ], SessionM σ α} (huniform : UniformIn (session.on ()) fun σ _ _ => act σ)
    (husable : contract.Usable session.storage) {post : Except StoreError α → Session Image → Prop}
    (hperforms : Performs (Unreliable.contract contract).toStorageView (act (Unreliable σ))
      (session.seen contract.toStorageView) post) :
    ∃ dialogue : Dialogue (Except StoreError α × Session Unit),
      (act σ session).2.storage = (dialogue.run session.storage).2 ∧
      ∀ moment ∈ dialogue.moments session.storage, contract.Usable moment ∧
        ∃ (result : Except StoreError α) (after : Session Image), after.storage = contract.image moment ∧
          post result after := by
  obtain ⟨dialogue, hdialogue⟩ := huniform
  refine ⟨dialogue, ?_, fun moment hmoment => ?_⟩
  · have happly := (hdialogue σ session.storage).2
    change act σ session = _ at happly
    rw [happly]
    rfl
  · obtain ⟨n, hn⟩ := Dialogue.exists_cutOff hmoment
    have happly := (hdialogue (Unreliable σ) (Unreliable.cutOff session.storage n)).2
    change act (Unreliable σ) (session.cutOff n) = _ at happly
    have hcutOff : (Unreliable.contract contract).Usable (.cutOff session.storage n) :=
      Unreliable.usable_cutOff husable n
    obtain ⟨husable', hpost⟩ := hperforms (session.cutOff n) hcutOff rfl
    rw [happly] at husable' hpost
    obtain ⟨hinner, -⟩ := husable'
    rw [← hn]
    exact ⟨hinner, _, _, rfl, hpost⟩

/-- At every moment of an event that does not end the session, the image is that of a session which serves the store of
before the event or of after it. -/
theorem moments_advance {σ : Type} [PagedStorage σ] {contract : StorageContract σ} {session : Session σ}
    (reopen : σ → σ) (husable : contract.Usable session.storage)
    (h : (session.seen contract.toStorageView).Serves layout store)
    (hreopen : ∀ policy options, event ≠ .reopen policy options)
    (hrecover : event = .recover → (contract.image session.storage).BlankFrom store.stop) :
    ∃ dialogue : Dialogue (Except StoreError Reply × Session Unit),
      (handle reopen event session).2.storage = (dialogue.run session.storage).2 ∧
      ∀ moment ∈ dialogue.moments session.storage, contract.Usable moment ∧
        ∃ (result : Except StoreError Reply) (session' : Session Image) (layout' : Layout) (store' : Store),
          session'.storage = contract.image moment ∧
          Advances True (store.scope event result) (session.seen contract.toStorageView) session' layout layout' store
            store' ∧ (store' = store ∨ store' = (store.respond event).2) := by
  have hfits : session.pageSize < 2 ^ 32 := by
    have hpageSize : store.pageSize = session.pageSize := h.pageSize
    rw [← hpageSize]
    exact h.keeps.supported.fits
  have huniform : UniformIn (session.on ()) fun σ _ _ => (handle (fun storage => storage) event : SessionM σ Reply) :=
    handle_uniform hfits hreopen
  have hperforms : Performs (Unreliable.contract contract).toStorageView (handle (fun storage => storage) event) _ _ :=
    handle_performs h (fun storage => storage) event hreopen hrecover
  obtain ⟨dialogue, hstorage, hmoments⟩ := moments_perform huniform husable hperforms
  refine ⟨dialogue, ?_, fun moment hmoment => ?_⟩
  · rw [handle_congr reopen (fun storage => storage) hreopen]
    exact hstorage
  · obtain ⟨hmoment, result, session', himage, layout', store', hadvances, houtcome⟩ := hmoments moment hmoment
    exact ⟨hmoment, result, session', layout', store', himage, hadvances, houtcome.same_or_respond⟩

/-- At every moment of an event the file is in use, and what it holds is from the run. -/
private theorem moments_past (husable : session.storage.Usable)
    (h : (session.seen (CachedFile.contract frames hframes).toStorageView).Serves layout store)
    (hclean : session.storage.image.Clean layout store)
    (hholds : session.storage.image.Holds 0 (ofList header.encode)) (hvalid : header.Valid)
    (hold : old ⊆ layout.ids) (hevent : ¬event.Syncs) (hbefore : stores store)
    (hafter : stores (store.respond event).2) :
    ∃ dialogue : Dialogue (Except StoreError Reply × Session Unit),
      (handle (fun storage => storage) event session).2.storage = (dialogue.run session.storage).2 ∧
      ∀ moment ∈ dialogue.moments session.storage, moment.Usable ∧ moment.image.Past header old stores := by
  have husable' : (CachedFile.contract frames hframes).Usable session.storage := husable
  have hreopen : ∀ policy options, event ≠ .reopen policy options := by
    rintro policy options rfl
    exact hevent trivial
  obtain ⟨dialogue, hstorage, hmoments⟩ := moments_advance (fun storage => storage) husable' h hreopen
    (by rintro rfl; exact absurd trivial hevent)
  refine ⟨dialogue, hstorage, fun moment hmoment => ?_⟩
  obtain ⟨hmoment, result, session', layout', store', himage, hadvances, hstore⟩ := hmoments moment hmoment
  have hstores : stores store' := by
    rcases hstore with rfl | rfl
    · exact hbefore
    · exact hafter
  have hpast := hadvances.past (store.start_scope hevent result) hclean hholds hvalid hstores hold
  rw [himage] at hpast
  exact ⟨hmoment, hpast⟩

/-- An event that does not flush leaves pages of the run on disk. -/
theorem lags_handle (husable : session.storage.Usable)
    (h : (session.seen (CachedFile.contract frames hframes).toStorageView).Serves layout store)
    (hclean : session.storage.image.Clean layout store)
    (hholds : session.storage.image.Holds 0 (ofList header.encode)) (hvalid : header.Valid)
    (hold : old ⊆ layout.ids) (hevent : ¬event.Syncs) (hbefore : stores store) (hafter : stores (store.respond event).2)
    (hlags : session.storage.Lags (Image.Past header old stores)) :
    (handle (fun storage => storage) event session).2.storage.Lags (Image.Past header old stores) := by
  obtain ⟨dialogue, hstorage, hmoments⟩ :=
    moments_past husable h hclean hholds hvalid hold hevent hbefore hafter
  rw [hstorage]
  exact hlags.dialogue hmoments

end Session

end RecordStore
