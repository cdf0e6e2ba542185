import RecordStore.Proofs.SafeRequests
import RecordStore.Proofs.Salvage
import RecordStore.Proofs.SessionsInUse

/-!
# Checked sessions

Whatever a storage holds: if a session can be opened on it, no check of any operation fails, now or after anything that
has happened to the session.  What is wrong with the slots shows as an error, never as an access that goes astray
(`any_bytes_are_safe`).
-/

namespace RecordStore

open Bytes CheckedM RangeFault StorageView CheckedRegion

variable {σ : Type} [PagedStorage σ]

namespace Session

variable {contract : StorageContract σ} {may : StoreError → Prop} {session : Session σ}

/-! ### Recounts and scans -/

private theorem recount_agreesIn (husable : contract.Usable session.storage)
    (hsound : (session.seen contract.toStorageView).Sound) (hsize : contract.extent session.storage < 2 ^ 63)
    (hmay : Bears contract may) : AgreesIn contract may (CheckedSession.recount contract.extent) recount session := by
  refine Agrees.get_bind ?_
  refine Agrees.step (AgreesIn.onSlots (CheckedRegion.recount_agrees husable rfl hsound.fits hsize hmay))
    fun counters _ _ husable' _ => ?_
  exact AgreesIn.setCounters husable' counters

private theorem recover_agrees (husable : contract.Usable session.storage)
    (hsound : (session.seen contract.toStorageView).Sound) (hsize : contract.extent session.storage < 2 ^ 63)
    (hmay : Bears contract may) : AgreesIn contract may (CheckedSession.recover contract.extent) recover session := by
  refine AgreesIn.ensureOpen (show session.closed = false from hsound.opened) ?_
  refine Agrees.step (recount_agreesIn husable hsound hsize hmay) fun _ after _ husable' hgrown => ?_
  have hheader : FileHeader.size ≤ contract.extent after.storage := Nat.le_trans (size_le_extent hsound) hgrown
  refine Agrees.step (persist_agrees husable' hheader hmay.io) fun _ last _ husable'' _ => ?_
  exact Agrees.get_bind (Agrees.pure husable'' last.counters)

private theorem countSlots_agrees (h : Ready contract session) (hmay : Bears contract may) :
    AgreesIn contract may (CheckedSession.countSlots contract.extent) countSlots session :=
  AgreesIn.ensureOpen h.opened
    (Agrees.get_bind (AgreesIn.onSlots (count_agrees h.usable rfl h.fits h.stop hmay)))

private theorem scanSlot_agrees (husable : contract.Usable session.storage) (hopened : session.closed = false)
    {cursor : Cursor}
    (hfits : ({ pageSize := session.pageSize, stop := cursor.stop } : Region).Fits (contract.image session.storage))
    (hstop : cursor.stop < 2 ^ 63) (hoffset : cursor.offset < cursor.stop) (hmay : Bears contract may) :
    AgreesIn contract may (CheckedSession.scanSlot contract.extent cursor) (scanSlot cursor) session := by
  refine AgreesIn.ensureOpen hopened (Agrees.get_bind ?_)
  refine Agrees.step (AgreesIn.onSlots (slotAt_agrees husable rfl hfits hstop hmay hoffset))
    fun header after hheader husable' _ => ?_
  obtain ⟨hact, hafter⟩ := eq_of_onSlots hheader
  obtain ⟨-, himage, hvalid, hslot, -⟩ :=
    (Region.slotAt_repeats hfits hfits (fun _ _ _ => rfl) hoffset).of_ok husable rfl hact
  have hbound : cursor.stop ≤ (contract.image after.storage).size := himage ▸ hfits.bound
  dsimp only at hslot ⊢
  cases RecordId.ofOffset? cursor.offset with
  | none => exact Agrees.fail husable' (hmay.corruption _ _)
  | some id =>
    cases header with
    | live capacity length origin =>
      have hlength : length ≤ capacity := hvalid.2.1
      have hpayload := hvalid.payload_le
      have hread : cursor.offset + SlotHeader.fullSize + length ≤ (contract.image after.storage).size := by omega
      dsimp only
      rw [narrow_of_lt (by omega), check_ok_bind]
      exact Agrees.step (AgreesIn.onSlots (readBytes_agrees husable' hread hmay.io)) fun _ _ _ husable'' _ =>
        Agrees.pure husable'' _
    | moved capacity target => exact Agrees.pure husable' _
    | deleted capacity length relocated => exact Agrees.pure husable' _
    | padding capacity => exact Agrees.pure husable' _

/-- What the visitor does to the session is done by requests, recounts and scans of its own. -/
def Handling {τ : Type} (reopen : σ → σ) (visitor : ScannedSlot → τ → StateM (Session σ) (Bool × τ)) : Prop :=
  ∀ slot seen session, ∃ events : List Event, (∀ policy options, Event.reopen policy options ∉ events) ∧
    (visitor slot seen session).2 = (runAll (handle reopen) events session).2

private theorem runAll_keeps (husable : contract.Usable session.storage)
    (hsound : (session.seen contract.toStorageView).Sound) {events : List Event}
    (hevents : ∀ policy options, Event.reopen policy options ∉ events) :
    let after := (runAll (handle contract.reopen) events session).2
    contract.Usable after.storage ∧ (after.seen contract.toStorageView).Sound ∧
      contract.extent session.storage ≤ contract.extent after.storage := by
  induction events generalizing session with
  | nil => exact ⟨husable, hsound, Nat.le_refl _⟩
  | cons event events ih =>
    have hevent : ∀ policy options, event ≠ .reopen policy options := by
      rintro policy options rfl
      exact hevents policy options List.mem_cons_self
    obtain ⟨husable', hsound', hgrown⟩ := handle_keeps hsound contract.reopen event hevent session husable rfl
    obtain ⟨husable'', hsound'', hgrown'⟩ := ih husable' hsound' fun policy options hmem =>
      hevents policy options (List.mem_cons_of_mem _ hmem)
    exact ⟨husable'', hsound'', Nat.le_trans hgrown hgrown'⟩

/-- One step of a checked scan, if its checks hold. -/
private theorem checked_forEachFrom_of_lt {τ : Type} {extent : σ → Nat}
    (visitor : ScannedSlot → τ → StateM (Session σ) (Bool × τ)) {cursor : Cursor} (hlt : cursor.offset < cursor.stop)
    (seen : τ) (hsame : CheckedSession.scanSlot extent cursor session = unchecked (scanSlot cursor) session) :
    CheckedSession.forEachFrom extent cursor visitor seen session =
      match scanSlot cursor session with
      | (.error e, after) => (.ok (some e, seen), after)
      | (.ok slot, after) =>
        match visitor slot seen after with
        | ((true, seen), after) =>
          CheckedSession.forEachFrom extent { cursor with offset := cursor.offset + slot.header.slotSize } visitor seen
            after
        | ((false, seen), after) => (.ok (none, seen), after) := by
  rw [CheckedSession.forEachFrom, if_pos hlt, bind_apply]
  unfold CheckedM.attempt
  rw [hsame, unchecked_apply]
  rcases scanSlot cursor session with ⟨e | slot, after⟩
  · rfl
  · dsimp only [Except.mapError]
    rw [bind_apply]
    have hvisit : (liftM (visitor slot seen) : CheckedM (Session σ) (Bool × τ)) after =
        (.ok (visitor slot seen after).1, (visitor slot seen after).2) := rfl
    rw [hvisit]
    rcases visitor slot seen after with ⟨⟨_ | _, seen⟩, after⟩ <;> rfl

/-- A scan that began when the slots ended at its end, in a storage that has not become smaller since. -/
private theorem forEachFrom_agrees {τ : Type} {visitor : ScannedSlot → τ → StateM (Session σ) (Bool × τ)}
    (hvisitor : Handling contract.reopen visitor) (hmay : Bears contract may) (cursor : Cursor) (seen : τ)
    (hstart : FileHeader.size ≤ cursor.stop) (haligned : cursor.stop % alignment = 0) (hstop : cursor.stop < 2 ^ 63)
    (husable : contract.Usable session.storage) (hsound : (session.seen contract.toStorageView).Sound)
    (hbound : cursor.stop ≤ contract.extent session.storage) :
    CheckedSession.forEachFrom contract.extent cursor visitor seen session =
        (.ok (forEachFrom cursor visitor seen session).1, (forEachFrom cursor visitor seen session).2) ∧
      ∀ e, (forEachFrom cursor visitor seen session).1.1 = some e → may e := by
  -- every slot has a size, so the cursor comes nearer to its end
  induction hleft : cursor.stop - cursor.offset using Nat.strong_induction_on generalizing cursor seen session with
  | _ left ih =>
    by_cases hlt : cursor.offset < cursor.stop
    · have hfits : ({ pageSize := session.pageSize, stop := cursor.stop } : Region).Fits
          (contract.image session.storage) :=
        ⟨hsound.fits.pageSize, hsound.fits.supported, hstart, hbound, haligned⟩
      have hscan := scanSlot_agrees husable hsound.opened hfits hstop hlt hmay
      have hkeeps : contract.Usable (scanSlot cursor session).2.storage ∧ _ :=
        scanSlot_keeps hsound.opened hfits hlt session husable rfl
      rw [checked_forEachFrom_of_lt visitor hlt seen hscan.same, forEachFrom_of_lt visitor hlt]
      rcases hstep : scanSlot cursor session with ⟨e | slot, after⟩
      · refine ⟨rfl, ?_⟩
        rintro _ ⟨⟩
        exact hscan.tells e (congrArg Prod.fst hstep)
      · rw [hstep] at hkeeps
        obtain ⟨husable', hafter, -⟩ := hkeeps
        have hpos := slot.header.slotSize_pos
        dsimp only at husable' hafter ⊢
        rcases hvisit : visitor slot seen after with ⟨⟨_ | _, seen'⟩, last⟩
        · exact ⟨rfl, by rintro _ ⟨⟩⟩
        · -- whatever the visitor has done, the slots of the cursor still lie in the storage
          obtain ⟨events, hevents, hlast⟩ := hvisitor slot seen after
          rw [hvisit] at hlast
          obtain ⟨husable'', hsound', hgrown⟩ := runAll_keeps husable' (hafter ▸ hsound) hevents
          dsimp only at hlast
          rw [← hlast] at husable'' hsound' hgrown
          refine ih _ ?_ { cursor with offset := cursor.offset + slot.header.slotSize } seen' hstart haligned hstop
            husable'' hsound' (Nat.le_trans ?_ hgrown) rfl
          · dsimp only
            omega
          · change cursor.stop ≤ ((after.seen contract.toStorageView).storage).size
            rw [hafter]
            exact hbound
    · rw [CheckedSession.forEachFrom, forEachFrom, if_neg hlt, if_neg hlt]
      exact ⟨rfl, by rintro _ ⟨⟩⟩

/-! ### Opening -/

section

variable {storage : σ} (husable : contract.Usable storage) (hio : contract.fallible → ∀ cause, may (.io cause))
include husable hio

private theorem setUp_agrees {pageSize : Nat} (h : SupportedPageSize pageSize) :
    AgreesOn contract may (CheckedSession.setUp contract.extent pageSize) (setUp pageSize) storage := by
  have hreach := h.le_reach
  unfold CheckedSession.setUp setUp
  rw [narrow_of_lt h.fits, check_ok_bind]
  refine Agrees.step (grow_agrees husable hreach hio) fun _ after hgrown husable' _ => ?_
  have hroom : pageSize ≤ contract.extent after := room_of_grow husable hreach hgrown
  have hwrite : 0 + (ofList (FileHeader.new pageSize).encode).size ≤ contract.extent after := by
    rw [size_ofList, FileHeader.length_encode, Nat.zero_add]
    exact Nat.le_trans h.header_le hroom
  refine Agrees.step (writeBytes_agrees husable' hwrite hio) fun _ _ _ husable _ => ?_
  exact Agrees.step (flush_agrees husable hio) fun _ _ _ husable' _ => Agrees.pure husable' _

private theorem loadHeader_agrees (hformat : ∀ fault, may (.format fault)) :
    AgreesOn contract may (CheckedSession.loadHeader contract.extent (contract.image storage).pageSize)
      (loadHeader (contract.image storage).pageSize) storage := by
  unfold CheckedSession.loadHeader loadHeader
  by_cases hunsupported : (contract.image storage).pageSize < minPageSize ∨
      (contract.image storage).pageSize % alignment ≠ 0 ∨ 1 <<< 32 ≤ (contract.image storage).pageSize
  · rw [if_pos hunsupported, if_pos hunsupported]
    exact Agrees.fail husable (hformat _)
  rw [if_neg hunsupported, if_neg hunsupported]
  have hsupported : SupportedPageSize (contract.image storage).pageSize := by
    refine ⟨by omega, by omega, ?_⟩
    have hshift : 1 <<< 32 = 2 ^ 32 := rfl
    omega
  have hsetUp : ∀ {storage' : σ}, contract.Usable storage' → AgreesOn contract may
      (do return (← CheckedSession.setUp contract.extent (contract.image storage).pageSize, true))
      (do return (← setUp (contract.image storage).pageSize, true)) storage' := fun husable' =>
    (setUp_agrees husable' hio hsupported).step fun _ _ _ husable'' _ => Agrees.pure husable'' _
  refine Agrees.step (size_agrees husable hio) fun size after hsize husable' _ => ?_
  obtain ⟨-, himage, hanswer | ⟨-, cause, hanswer⟩⟩ := contract.size_answers.of_ok husable rfl hsize
  · cases hanswer
    split
    · exact hsetUp husable'
    split
    · exact Agrees.fail husable' (hformat _)
    have hread : 0 + FileHeader.size ≤ (contract.image after).size := by
      rw [himage]
      omega
    refine Agrees.step (readBytes_agrees husable' hread hio) fun raw last _ husable'' _ => ?_
    rw [FileHeader.decodeChecked_eq, check_ok_bind]
    cases FileHeader.decode raw.data.toList with
    | error fault => exact Agrees.fail husable'' (hformat _)
    | ok found =>
      cases found with
      | none => exact hsetUp husable''
      | some header =>
        dsimp only
        split
        · exact Agrees.fail husable'' (hformat _)
        split
        · exact Agrees.fail husable'' (hformat _)
        · exact Agrees.pure husable'' _
  · cases hanswer

end

/-- A recount is made only of a file that was found, which is as large as it was. -/
private theorem start_agrees (husable : contract.Usable session.storage)
    (hsound : (session.seen contract.toStorageView).Sound)
    (hsize : session.wasClosedProperly = false → contract.extent session.storage < 2 ^ 63) (hmay : Bears contract may)
    (recover : Bool) : AgreesIn contract may (CheckedSession.start contract.extent recover) (start recover) session := by
  have hrest : ∀ {session : Session σ}, contract.Usable session.storage →
      FileHeader.size ≤ contract.extent session.storage → AgreesIn contract may (do
        modify fun session => { session with header := { session.header with status := .opened } }
        CheckedSession.persist contract.extent) (do
        modify fun session => { session with header := { session.header with status := .opened } }
        persist) session := fun {session} husable hheader => by
    have hmark : AgreesIn contract may
        (modify fun session => { session with header := { session.header with status := .opened } })
        (modify fun session => { session with header := { session.header with status := .opened } }) session :=
      ⟨rfl, by rintro _ ⟨⟩, husable, Nat.le_refl _⟩
    exact hmark.step fun _ after _ husable' hgrown =>
      persist_agrees husable' (Nat.le_trans hheader hgrown) hmay.io
  have hheader := size_le_extent hsound
  unfold CheckedSession.start start
  refine Agrees.get_bind ?_
  cases hproper : session.wasClosedProperly with
  | true => exact hrest husable hheader
  | false =>
    cases recover with
    | false => exact hrest husable hheader
    | true =>
      exact Agrees.step (recount_agreesIn husable hsound (hsize hproper) hmay) fun _ _ _ husable' hgrown =>
        hrest husable' (Nat.le_trans hheader hgrown)

private theorem openOn_agrees {storage : σ} (husable : contract.Usable storage)
    (hsize : contract.extent storage < 2 ^ 63) (hmay : Bears contract may) (hformat : ∀ fault, may (.format fault))
    (policy : CapacityPolicy) (options : Options) :
    CheckedSession.openOn contract.extent storage policy options = .ok (openOn storage policy options) ∧
      ∀ e left, openOn storage policy options = .error (e, left) → may e := by
  obtain ⟨hsame, htells, -, -⟩ := loadHeader_agrees husable hmay.io hformat
  obtain ⟨husable', hloads⟩ := loadHeader_loads contract (contract.image storage) storage husable rfl
  unfold CheckedSession.openOn openOn
  simp only [contract.pageSize_eq husable]
  rw [hsame, unchecked_apply]
  rcases hfound : loadHeader (contract.image storage).pageSize storage with ⟨e | ⟨header, proper⟩, after⟩
  · rw [hfound] at htells
    refine ⟨rfl, ?_⟩
    rintro _ _ ⟨⟩
    exact htells e rfl
  · -- the header was accepted, and its region lies in the storage
    rw [hfound] at husable' hloads
    obtain ⟨hfits, hsame⟩ := hloads.fits
    dsimp only [Except.mapError] at husable' hfits hsame ⊢
    generalize hbegin : ({ storage := after, policy, maxHops := options.maxHops
                           pageSize := (contract.image storage).pageSize, wasClosedProperly := proper, header
                           closed := false } : Session σ) = session
    have hsound : (session.seen contract.toStorageView).Sound := by
      rw [← hbegin]
      exact ⟨rfl, hfits⟩
    have hsmall : session.wasClosedProperly = false → contract.extent session.storage < 2 ^ 63 := by
      rw [← hbegin]
      exact fun hproper => lt_of_eq_of_lt (hsame hproper) hsize
    obtain ⟨hsame', htells', -, -⟩ := start_agrees (by rw [← hbegin]; exact husable') hsound hsmall hmay options.recover
    rw [hsame', unchecked_apply]
    rcases hstart : start options.recover session with ⟨e | ⟨⟩, last⟩
    · refine ⟨rfl, ?_⟩
      rintro _ _ ⟨⟩
      exact htells' e (congrArg Prod.fst hstart)
    · exact ⟨rfl, by rintro _ _ ⟨⟩⟩

/-! ### Any bytes -/

/-- Whatever a storage holds: opening it fails no check, and neither does any operation of a session that was opened on
it, whatever has happened to the session since.  A file that is not accepted is refused for its format or for a damaged
slot.  What is wrong with the slots of a file that is accepted shows as damage, and of an identifier it is said that
there is nothing under it only if it is that of no slot. -/
theorem any_bytes_are_safe (contract : StorageContract σ) :
    (∀ storage policy options, contract.Usable storage → contract.extent storage < 2 ^ 63 →
      CheckedSession.openOn contract.extent storage policy options = .ok (openOn storage policy options) ∧
        ∀ e left, openOn storage policy options = .error (e, left) →
          Spoilt contract e ∨ ∃ fault, e = .format fault) ∧
    ∀ session, InUse contract session → contract.extent session.storage < 2 ^ 63 →
      (∀ request : Request, AgreesIn contract
        (fun e => Spoilt contract e ∨ request.Refused session.region (contract.image session.storage) e)
        (CheckedSession.perform contract.extent request) (perform request) session) ∧
      AgreesIn contract (Spoilt contract) (CheckedSession.recover contract.extent) recover session ∧
      AgreesIn contract (Spoilt contract) (CheckedSession.countSlots contract.extent) countSlots session ∧
      ∀ {τ : Type} (visitor : ScannedSlot → τ → StateM (Session σ) (Bool × τ)) (seen : τ) (events : List Event),
        Handling contract.reopen visitor → (∀ policy options, Event.reopen policy options ∉ events) →
          let changed := (runAll (handle contract.reopen) events session).2
          let scan := forEachFrom session.cursor visitor seen changed
          CheckedSession.forEachFrom contract.extent session.cursor visitor seen changed = (.ok scan.1, scan.2) ∧
            ∀ e, scan.1.1 = some e → Spoilt contract e := by
  refine ⟨fun storage policy options husable hsize => ?_, fun session huse hsize => ?_⟩
  · exact openOn_agrees husable hsize (bears_of_spoilt fun _ => .inl) (fun fault => .inr ⟨fault, rfl⟩) policy options
  · obtain ⟨husable, hsound⟩ := huse.sound
    have hbound : session.cursor.stop ≤ contract.extent session.storage := hsound.fits.bound
    have hstop : session.cursor.stop < 2 ^ 63 := Nat.lt_of_le_of_lt hbound hsize
    have hmay : Bears contract (Spoilt contract) := bears_of_spoilt fun _ he => he
    have hready : Ready contract session := ⟨husable, hsound, hstop⟩
    refine ⟨perform_agrees hready, recover_agrees husable hsound hsize hmay, countSlots_agrees hready hmay,
      fun visitor seen events hvisitor hevents => ?_⟩
    obtain ⟨husable', hsound', hgrown⟩ := runAll_keeps husable hsound hevents
    exact forEachFrom_agrees hvisitor hmay session.cursor seen hsound.fits.start hsound.fits.aligned hstop husable'
      hsound' (Nat.le_trans hbound hgrown)

/-- A file with an empty record, behind which a slot claims to be larger than any file. -/
def damagedMemory : Memory :=
  .holding 256 256 <|
    FileHeader.encode { version := 1, pageSize := 256, status := .closed, counters := ⟨2, 0, 0, 0, 0, 256⟩ } ++
      SlotHeader.encode (.live 8 0 none) ++ List.replicate 8 0 ++ SlotHeader.encode (.live 4294967295 0 none)

theorem usable_damagedMemory : Memory.contract.Usable damagedMemory :=
  Memory.usable_holding (by decide) rfl (by simp [FileHeader.length_encode, SlotHeader.length_encode_header,
    SlotHeader.headerSize, SlotHeader.fullSize, FileHeader.size])

/-- A visitor that only looks on. -/
def onlooker : ScannedSlot → List RecordId → StateM (Session σ) (Bool × List RecordId) :=
  fun slot seen => return (true, seen ++ [slot.id])

theorem handling_onlooker (reopen : σ → σ) : Handling reopen onlooker := fun _ _ _ => ⟨[], nofun, rfl⟩

theorem damaged_file_is_safe : ∃ session,
    CheckedSession.openOn Memory.contract.extent damagedMemory .exactDefault .default = .ok (.ok session) ∧
      (CheckedSession.perform Memory.contract.extent (.read strayId) session).1 = .error (.error (.notFound strayId)) ∧
      ¬session.region.HasSlot (Memory.contract.image session.storage) strayId ∧
      (CheckedSession.perform Memory.contract.extent (.read secondId) session).1 =
        .error (.error (.corruption 88 (.overrun 4294967312))) ∧
      (CheckedSession.recover Memory.contract.extent session).1 =
        .error (.error (.corruption 88 (.overrun 4294967312))) ∧
      (CheckedSession.forEachFrom Memory.contract.extent session.cursor onlooker [] session).1 =
        .ok (some (.corruption 88 (.overrun 4294967312)), [firstId]) := by
  have hrun : (openOn damagedMemory .exactDefault .default).toOption.map (fun session =>
      (session.storage.image.size, (perform (.read strayId) session).1, (perform (.read secondId) session).1)) =
        some (256, .error (.notFound strayId), .error (.corruption 88 (.overrun 4294967312))) := by
    decide +kernel
  have hwalks : (openOn damagedMemory .exactDefault .default).toOption.map (fun session =>
      ((recover session).1, (forEachFrom session.cursor onlooker [] session).1)) =
        some (.error (.corruption 88 (.overrun 4294967312)), some (.corruption 88 (.overrun 4294967312)), [firstId]) := by
    decide +kernel
  obtain ⟨hopens, hsafe⟩ := any_bytes_are_safe Memory.contract
  obtain ⟨hchecked, -⟩ := hopens damagedMemory .exactDefault .default usable_damagedMemory (by decide)
  rcases hopen : openOn damagedMemory .exactDefault .default with e | session
  · rw [hopen] at hrun
    cases hrun
  · rw [hopen] at hrun hwalks hchecked
    obtain ⟨hsize, hstray, hdamaged⟩ : _ ∧ _ ∧ _ := by simpa using Option.some.inj hrun
    obtain ⟨hrecover, hscan⟩ := Prod.mk.inj (Option.some.inj hwalks)
    have hsmall : Memory.contract.extent session.storage < 2 ^ 63 := lt_of_eq_of_lt hsize (by decide)
    obtain ⟨hperform, hrecovered, -, hscanned⟩ := hsafe session (.opened usable_damagedMemory hopen) hsmall
    have hresult : ∀ (request : Request) {e : StoreError}, (perform request session).1 = .error e →
        (CheckedSession.perform Memory.contract.extent request session).1 = .error (.error e) := by
      intro request e he
      rw [(hperform request).same, unchecked_apply, he]
      rfl
    refine ⟨session, hchecked, hresult _ hstray, ?_, hresult _ hdamaged, ?_, ?_⟩
    · rcases (hperform (.read strayId)).tells _ hstray with hspoilt | hrefused
      · cases hspoilt
      · cases hrefused with
        | notFound hid hslot => exact hslot
    · rw [hrecovered.same, unchecked_apply, hrecover]
      rfl
    · exact (congrArg Prod.fst (hscanned onlooker [] [] (handling_onlooker _) nofun).1).trans (congrArg Except.ok hscan)

end Session

end RecordStore
