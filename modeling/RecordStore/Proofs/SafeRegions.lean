import RecordStore.Proofs.CheckedOperations
import RecordStore.Proofs.RawRegions

/-!
# Checked work on regions

On a region of any bytes (`Region.Fits`) every check holds, so checked work does what it does without the checks
(`Agrees`).
-/

namespace RecordStore

open Bytes CheckedM RangeFault StorageView

variable {σ α : Type} [PagedStorage σ]

/-- How large a storage is. -/
def StorageContract.extent (contract : StorageContract σ) (storage : σ) : Nat := (contract.image storage).size

/-- Started in `state` no check fails, and the work ends with an error of some kind or with none.  It leaves a usable
storage behind, which has not become smaller. -/
structure Agrees {s : Type} (contract : StorageContract σ) (store : s → σ) (may : StoreError → Prop)
    (checked : CheckedM s α) (act : ExceptT StoreError (StateM s) α) (state : s) : Prop where
  same : checked state = unchecked act state
  tells : ∀ e, (act state).1 = .error e → may e
  usable : contract.Usable (store (act state).2)
  grows : contract.extent (store state) ≤ contract.extent (store (act state).2)

/-- The same for work on a storage itself. -/
abbrev AgreesOn (contract : StorageContract σ) (may : StoreError → Prop) (checked : CheckedM σ α) (act : SlotM σ α)
    (storage : σ) : Prop := Agrees contract (fun storage => storage) may checked act storage

namespace Agrees

variable {s β : Type} {contract : StorageContract σ} {store : s → σ} {may : StoreError → Prop} {state : s}

theorem pure (husable : contract.Usable (store state)) (a : α) :
    Agrees contract store may (Pure.pure a) (Pure.pure a) state :=
  ⟨rfl, by rintro _ ⟨⟩, husable, Nat.le_refl _⟩

theorem fail (husable : contract.Usable (store state)) {e : StoreError} (he : may e) :
    Agrees contract store may (CheckedM.fail e : CheckedM s α) (MonadExcept.throw e) state :=
  ⟨rfl, by rintro _ ⟨⟩; exact he, husable, Nat.le_refl _⟩

theorem step {checked : CheckedM s α} {act : ExceptT StoreError (StateM s) α} {next' : α → CheckedM s β}
    {next : α → ExceptT StoreError (StateM s) β} (h : Agrees contract store may checked act state)
    (hnext : ∀ a after, act state = (.ok a, after) → contract.Usable (store after) →
      contract.extent (store state) ≤ contract.extent (store after) →
      Agrees contract store may (next' a) (next a) after) :
    Agrees contract store may (checked >>= next') (act >>= next) state := by
  obtain ⟨hsame, htells, husable, hgrows⟩ := h
  rw [unchecked_apply] at hsame
  rcases hact : act state with ⟨e | a, after⟩
  · rw [hact] at hsame htells husable hgrows
    have hchecked : (checked >>= next') state = (.error (.error e), after) := by
      rw [bind_apply, hsame]
      rfl
    have hplain : (act >>= next) state = (.error e, after) := by rw [bind_apply, hact]
    refine ⟨?_, ?_, hplain ▸ husable, hplain ▸ hgrows⟩
    · rw [hchecked, unchecked_apply, hplain]
      rfl
    · rw [hplain]
      rintro _ ⟨⟩
      exact htells e rfl
  · rw [hact] at hsame husable hgrows
    have hchecked : (checked >>= next') state = next' a after := by
      rw [bind_apply, hsame]
      rfl
    have hplain : (act >>= next) state = next a after := by rw [bind_apply, hact]
    obtain ⟨hsame', htells', husable', hgrows'⟩ := hnext a after hact husable hgrows
    refine ⟨?_, hplain ▸ htells', hplain ▸ husable', hplain ▸ Nat.le_trans hgrows hgrows'⟩
    rw [hchecked, unchecked_apply, hplain]
    exact hsame'

theorem get_bind {next' : s → CheckedM s β} {next : s → ExceptT StoreError (StateM s) β}
    (h : Agrees contract store may (next' state) (next state) state) :
    Agrees contract store may (get >>= next') (get >>= next) state :=
  ⟨h.same, h.tells, h.usable, h.grows⟩

theorem ofExcept (husable : contract.Usable (store state)) {result : Except StoreError α}
    (h : ∀ e, result = .error e → may e) :
    Agrees contract store may (unchecked (liftExcept result)) (liftExcept result) state := by
  cases result with
  | ok a => exact pure husable a
  | error e => exact fail husable (h e rfl)

theorem ofExcept_bind (husable : contract.Usable (store state)) {result : Except StoreError α}
    {next' : α → CheckedM s β} {next : α → ExceptT StoreError (StateM s) β} (herror : ∀ e, result = .error e → may e)
    (hnext : ∀ a, result = .ok a → Agrees contract store may (next' a) (next a) state) :
    Agrees contract store may (unchecked (liftExcept result) >>= next') (liftExcept result >>= next) state := by
  refine step (ofExcept husable herror) fun a after hok _ _ => ?_
  cases result with
  | ok b =>
    cases hok
    exact hnext a rfl
  | error e => cases hok

theorem attempt {storage : σ} {checked : CheckedM σ α} {act : SlotM σ α} {may' : StoreError → Prop}
    (h : AgreesOn contract may' checked act storage) : AgreesOn contract may checked.attempt act.attempt storage := by
  obtain ⟨hsame, -, husable, hgrows⟩ := h
  refine ⟨?_, by rintro _ ⟨⟩, husable, hgrows⟩
  unfold CheckedM.attempt
  rw [hsame, unchecked_apply, unchecked_apply]
  unfold SlotM.attempt
  rcases act storage with ⟨e | a, after⟩ <;> rfl

end Agrees

omit [PagedStorage σ] in
/-- How attempted work has ended. -/
theorem SlotM.eq_of_attempt {act : SlotM σ α} {storage after : σ} {result : Except StoreError α}
    (h : act.attempt storage = (.ok result, after)) : act storage = (result, after) := by
  unfold SlotM.attempt at h
  rcases hact : act storage with ⟨result', after'⟩
  rw [hact] at h
  cases h
  rfl

omit [PagedStorage σ] in
/-- What is known of work that has ended. -/
theorem StorageView.Runs.of_ok {view : StorageView σ} {act : SlotM σ α} {img : Image}
    {post : Except StoreError α → Image → Prop} {storage after : σ} {a : α} (h : view.Runs act img post)
    (husable : view.Usable storage) (himage : view.image storage = img) (hok : act storage = (.ok a, after)) :
    view.Usable after ∧ post (.ok a) (view.image after) := by
  have hrun := h storage husable himage
  rw [hok] at hrun
  exact hrun

theorem Repeats.of_ok {act : ∀ (σ : Type) [PagedStorage σ], SlotM σ α} {img : Image} {post : α → Prop}
    {contract : StorageContract σ} {storage after : σ} {a : α} (h : Repeats act img img post)
    (husable : contract.Usable storage) (himage : contract.image storage = img)
    (hok : act σ storage = (.ok a, after)) : contract.Usable after ∧ contract.image after = img ∧ post a := by
  have hruns : contract.Runs (act σ) img fun result after => after = img ∧ ∀ a, result = .ok a → post a := by
    refine h.runs contract (fun a ha => ⟨rfl, ?_⟩) fun e => ⟨rfl, by rintro _ ⟨⟩⟩
    rintro _ ⟨⟩
    exact ha
  obtain ⟨husable', himage', hpost⟩ := hruns.of_ok husable himage hok
  exact ⟨husable', himage', hpost a rfl⟩

namespace Region

variable {region : Region} {img : Image}

/-! ### Identifiers -/

/-- Where slots start: behind the file header, at the start of a page, and where another slot ends. -/
inductive StartsSlot (region : Region) (img : Image) : Nat → Prop
  | first (page : Nat) : StartsSlot region img (max (page * region.pageSize) FileHeader.size)
  | next {offset : Nat} {header : SlotHeader} (h : StartsSlot region img offset)
      (hseen : region.slotSeen img offset = .ok header) : StartsSlot region img (offset + header.slotSize)

/-- A slot of the region that may be a record's starts where the identifier says. -/
structure HasSlot (region : Region) (img : Image) (id : RecordId) : Prop where
  low : FileHeader.size ≤ id.offset
  high : id.offset < region.stop
  start : region.StartsSlot img id.offset
  kind : ∀ capacity, region.slotSeen img id.offset ≠ .ok (.padding capacity)

theorem StartsSlot.low {offset : Nat} (h : region.StartsSlot img offset) : FileHeader.size ≤ offset := by
  induction h with
  | first page => exact Nat.le_max_right _ _
  | next _ _ ih => exact Nat.le_trans ih (Nat.le_add_right _ _)

/-- A slot in front of the target is stepped over. -/
private theorem reaches_step {offset target first length : Nat} {header : SlotHeader}
    (hseen : region.slotSeen img offset = .ok header) (hfirst : first ≤ offset)
    (htarget : offset + header.slotSize ≤ target) (hlength : target < first + length) :
    reaches (img.read first length) first target offset =
      reaches (img.read first length) first target (offset + header.slotSize) := by
  obtain ⟨hdecode, -, -, -⟩ := slotSeen_eq_ok hseen
  obtain ⟨-, hheader, hcongr⟩ := SlotHeader.decode_facts hdecode
  have hpos := header.slotSize_pos
  have hsize := header.size_le_slotSize
  have hfull := header.headerSize_le
  have hstart : first + (offset - first) = offset := by omega
  have hcover : header.headerSize ≤ min (offset - first + SlotHeader.fullSize) length - (offset - first) := by omega
  have hread : header.headerSize ≤ min (region.pageEnd offset - offset) SlotHeader.fullSize := by simpa using hheader
  rw [reaches, if_pos (by omega)]
  simp only [Image.extract_read]
  rw [hstart, hcongr _ ?_]
  rw [Image.take_toList_read _ _ hcover, Image.take_toList_read _ _ hread]

/-- The walk through the page of the target comes by every slot that starts in front of it. -/
theorem StartsSlot.reaches_eq {offset : Nat} (h : region.StartsSlot img offset)
    (hpage : FileHeader.size < region.pageSize) {target first length : Nat} (hle : offset ≤ target)
    (hsame : region.pageStart target = region.pageStart offset)
    (hfirst : first = max (region.pageStart target) FileHeader.size) (hlength : target < first + length) :
    reaches (img.read first length) first target first = reaches (img.read first length) first target offset := by
  induction h with
  | first page =>
    have hstart : region.pageStart (max (page * region.pageSize) FileHeader.size) = page * region.pageSize := by
      unfold pageStart
      cases page with
      | zero => rw [Nat.zero_mul, Nat.zero_max, Nat.div_eq_of_lt hpage, Nat.zero_mul]
      | succ page =>
        have hhigh : region.pageSize ≤ (page + 1) * region.pageSize := Nat.le_mul_of_pos_left _ (Nat.succ_pos _)
        rw [Nat.max_eq_left (by omega), Nat.mul_div_cancel _ (by omega)]
    rw [hfirst, hsame, hstart]
  | @next offset header h hseen ih =>
    obtain ⟨-, hend, -, -⟩ := slotSeen_eq_ok hseen
    have hpos : 0 < region.pageSize := by omega
    have hlow : region.pageStart offset ≤ offset := Nat.div_mul_le_self _ _
    rw [pageEnd_eq] at hend
    -- a slot may end where its page does, and the next one is then the first of another page
    rcases Nat.lt_or_eq_of_le hend with hlt | hat
    · have hstart : region.pageStart (offset + header.slotSize) = region.pageStart offset := by
        refine congrArg (· * region.pageSize) (Nat.le_antisymm ?_ (Nat.div_le_div_right (Nat.le_add_right _ _)))
        exact Nat.lt_succ_iff.1 ((Nat.div_lt_iff_lt_mul hpos).2 hlt)
      rw [ih (by omega) (hsame.trans hstart)]
      have hlow' := h.low
      rw [hsame, hstart] at hfirst
      exact reaches_step hseen (by omega) hle hlength
    · have hstart : region.pageStart (offset + header.slotSize) = offset + header.slotSize := by
        unfold pageStart
        rw [hat]
        unfold endOfPage
        rw [Nat.mul_div_cancel _ hpos]
      have hlow' := h.low
      rw [show first = offset + header.slotSize by omega]

/-- What is a slot is taken for one. -/
theorem HasSlot.answers {id : RecordId} (h : region.HasSlot img id) (hfits : region.Fits img)
    (contract : StorageContract σ) : contract.Answers (region.isSlot id) img (.ok true) := by
  obtain ⟨hlow, hhigh, hstart, -⟩ := h
  have hpageSize := hfits.pageSize
  have hlarge := hfits.supported.large
  have hbound := hfits.bound
  have hfirst : region.pageStart id.offset ≤ id.offset := Nat.div_mul_le_self _ _
  have hpageEnd : id.offset < region.pageEnd id.offset := by
    rw [region.pageEnd_eq, hpageSize]
    exact lt_endOfPage hfits.supported.pos _
  unfold isSlot contains
  rw [if_pos (by simpa using ⟨hlow, hhigh⟩)]
  unfold isSlotStart
  dsimp only
  split
  · exact Answers.pure true
  refine (contract.read_answers (by omega)).bind ?_
  have hpage : FileHeader.size < region.pageSize := by
    rw [hpageSize]
    exact Nat.lt_of_lt_of_le (by decide) hlarge
  rw [hstart.reaches_eq hpage (Nat.le_refl _) rfl rfl (by omega), reaches, if_neg (Nat.lt_irrefl _), decide_eq_true rfl]
  exact Answers.pure true

end Region

namespace CheckedRegion

variable {contract : StorageContract σ} {may : StoreError → Prop} {storage : σ}

/-! ### Calls of the storage -/

private theorem call_agrees {act : StorageM σ α} {answers : α → Image → Prop}
    (h : contract.Serves act storage answers)
    (hgrows : ∀ a after, answers a after → (contract.image storage).size ≤ after.size)
    (hio : contract.fallible → ∀ cause, may (.io cause)) :
    AgreesOn contract may (unchecked (SlotM.onStorage act)) (SlotM.onStorage act) storage := by
  obtain ⟨husable, hserves⟩ := h
  have hsize : contract.extent storage ≤ contract.extent (act storage).2 := by
    rcases hact : (act storage).1 with cause | a
    · rw [hact] at hserves
      exact Nat.le_of_eq (congrArg Image.size hserves.2.symm)
    · rw [hact] at hserves
      exact hgrows a _ hserves
  refine ⟨rfl, ?_, husable, hsize⟩
  rw [SlotM.onStorage_apply]
  rcases hact : (act storage).1 with cause | a
  · rw [hact] at hserves
    rintro _ ⟨⟩
    exact hio hserves.1 cause
  · rintro _ ⟨⟩

omit [PagedStorage σ] in
private theorem access_bind {extent : σ → Nat} {offset length : Nat} (h : offset + length ≤ extent storage)
    (next : Unit → CheckedM σ α) : (access extent offset length >>= next) storage = next () storage := by
  have haccess : access extent offset length storage = (.ok (), storage) := by
    unfold access
    rw [get_bind_apply, if_neg (Nat.not_lt.2 h)]
    rfl
  rw [bind_apply, haccess]

theorem readBytes_agrees (husable : contract.Usable storage) {offset length : Nat}
    (h : offset + length ≤ (contract.image storage).size) (hio : contract.fallible → ∀ cause, may (.io cause)) :
    AgreesOn contract may (readBytes contract.extent offset length) (SlotM.onStorage (PagedStorage.read offset length))
      storage := by
  have hcall := call_agrees (contract.read husable h)
    (fun _ _ hafter => Nat.le_of_eq (congrArg Image.size hafter.2.symm)) hio
  refine ⟨Eq.trans ?_ hcall.same, hcall.tells, hcall.usable, hcall.grows⟩
  exact access_bind (show offset + length ≤ contract.extent storage from h) _

theorem writeBytes_agrees (husable : contract.Usable storage) {offset : Nat} {data : ByteArray}
    (h : offset + data.size ≤ (contract.image storage).size) (hio : contract.fallible → ∀ cause, may (.io cause)) :
    AgreesOn contract may (writeBytes contract.extent offset data) (SlotM.onStorage (PagedStorage.write offset data))
      storage := by
  have hcall := call_agrees (contract.write husable h)
    (fun _ _ hafter => Nat.le_of_eq (congrArg Image.size hafter).symm) hio
  refine ⟨Eq.trans ?_ hcall.same, hcall.tells, hcall.usable, hcall.grows⟩
  exact access_bind (show offset + data.size ≤ contract.extent storage from h) _

theorem size_agrees (husable : contract.Usable storage) (hio : contract.fallible → ∀ cause, may (.io cause)) :
    AgreesOn contract may (unchecked (SlotM.onStorage PagedStorage.size)) (SlotM.onStorage PagedStorage.size) storage :=
  call_agrees (contract.size husable) (fun _ _ hafter => Nat.le_of_eq (congrArg Image.size hafter.2.symm)) hio

theorem grow_agrees (husable : contract.Usable storage) {target : Nat} (h : target ≤ reach)
    (hio : contract.fallible → ∀ cause, may (.io cause)) :
    AgreesOn contract may (unchecked (SlotM.onStorage (PagedStorage.grow target)))
      (SlotM.onStorage (PagedStorage.grow target)) storage :=
  call_agrees (contract.grow husable h) (fun _ _ hafter => hafter.2.2) hio

/-- A storage that has grown has the room it was to have. -/
theorem room_of_grow (husable : contract.Usable storage) {target : Nat} (h : target ≤ reach) {after : σ}
    (hok : SlotM.onStorage (PagedStorage.grow target) storage = (.ok (), after)) : target ≤ contract.extent after := by
  have hgrow : contract.Runs (SlotM.onStorage (PagedStorage.grow target)) (contract.image storage)
      fun result after => ∀ done, result = .ok done → target ≤ after.size :=
    contract.grow_runs h (fun size htarget _ _ _ => htarget) fun _ _ => by rintro _ ⟨⟩
  exact (hgrow.of_ok husable rfl hok).2 () rfl

theorem flush_agrees (husable : contract.Usable storage) (hio : contract.fallible → ∀ cause, may (.io cause)) :
    AgreesOn contract may (unchecked (SlotM.onStorage PagedStorage.flush)) (SlotM.onStorage PagedStorage.flush) storage :=
  call_agrees (contract.flush husable) (fun _ _ hafter => Nat.le_of_eq (congrArg Image.size hafter.symm)) hio

private theorem size_of_read (husable : contract.Usable storage) {offset length : Nat}
    (h : offset + length ≤ (contract.image storage).size) {bytes : ByteArray} {after : σ}
    (hread : SlotM.onStorage (PagedStorage.read offset length) storage = (.ok bytes, after)) : bytes.size = length := by
  obtain ⟨-, -, hbytes | ⟨-, cause, hbytes⟩⟩ := (contract.read_answers h).of_ok husable rfl hread
  · rw [Except.ok.inj hbytes, Image.size_read]
  · cases hbytes

/-! ### Slots -/

/-- What work on slots may end with. -/
structure Bears (contract : StorageContract σ) (may : StoreError → Prop) : Prop where
  io : contract.fallible → ∀ cause, may (.io cause)
  corruption : ∀ offset damage, may (.corruption offset damage)

private theorem slotSize_lt {offset : Nat} {header : SlotHeader} (h : header.Valid offset) : header.slotSize < 2 ^ 33 := by
  have hcapacity := h.capacity_lt
  have hheader := header.headerSize_le
  unfold SlotHeader.slotSize SlotHeader.sizeFor alignUp alignment
  unfold SlotHeader.fullSize at hheader
  omega

variable {region : Region} {img : Image}

theorem stop_le_extent (himage : contract.image storage = img) (h : region.Fits img) :
    region.stop ≤ contract.extent storage := by
  rw [StorageContract.extent, himage]
  exact h.bound

private theorem pageEnd_of_le (h : region.Fits img) (hstop : region.stop < 2 ^ 63) {offset : Nat}
    (hoffset : offset ≤ region.stop) : pageEnd region offset = .ok (region.pageEnd offset) := by
  have hsize := h.supported.fits
  have hend := endOfPage_le_add img.pageSize offset
  refine narrow_of_lt ?_
  change region.pageEnd offset < 2 ^ 64
  rw [region.pageEnd_eq, h.pageSize]
  omega

theorem slotAt_agrees (husable : contract.Usable storage) (himage : contract.image storage = img) (h : region.Fits img)
    (hstop : region.stop < 2 ^ 63) (hmay : Bears contract may) {offset : Nat} (hoffset : offset < region.stop) :
    AgreesOn contract may (slotAt contract.extent region offset) (region.slotAt offset) storage := by
  subst himage
  have hpos : offset < region.pageEnd offset := by
    rw [region.pageEnd_eq, h.pageSize]
    exact lt_endOfPage h.supported.pos offset
  have hend := h.pageEnd_le (contract.wellFormed husable) hoffset
  unfold slotAt Region.slotAt
  rw [pageEnd_of_le h hstop (Nat.le_of_lt hoffset), check_ok_bind, subtract_of_le (Nat.le_of_lt hpos), check_ok_bind]
  refine Agrees.step (readBytes_agrees husable (by omega) hmay.io) fun raw after _ husable' _ => ?_
  rw [SlotHeader.decodeChecked_eq, check_ok_bind]
  cases hdecode : SlotHeader.decode offset raw.data.toList with
  | error fault => exact Agrees.fail husable' (hmay.corruption _ _)
  | ok header =>
    have hsize := slotSize_lt (SlotHeader.decode_facts hdecode).1
    dsimp only
    rw [narrow_of_lt (by omega), check_ok_bind]
    split
    · exact Agrees.fail husable' (hmay.corruption _ _)
    · exact Agrees.pure husable' _

private theorem extract_min (bytes : ByteArray) (start stop : Nat) :
    bytes.extract start (min stop bytes.size) = bytes.extract start stop := by
  apply ext_byte (by simp only [ByteArray.size_extract]; omega)
  intro i hi
  simp only [ByteArray.size_extract] at hi
  rw [byte_extract, byte_extract, if_pos (by omega), if_pos (by omega)]

/-- What is looked at of the page lies in there, since the walk stays between its first slot and the target. -/
private theorem reaches_eq {page : ByteArray} {first target position : Nat} (hfirst : first ≤ position)
    (hpage : target ≤ first + page.size) (htarget : target < 2 ^ 63) :
    reaches page first target position = .ok (Region.reaches page first target position) := by
  induction position using reaches.induct target with
  | case1 position hlt ih =>
    rw [reaches, Region.reaches, if_pos hlt, if_pos hlt, subtract_of_le hfirst]
    dsimp only [Bind.bind, Except.bind]
    rw [within_of_le (by omega) (Nat.min_le_right _ _), SlotHeader.decodeChecked_eq, extract_min]
    dsimp only
    cases hdecode : SlotHeader.decode position
        (page.extract (position - first) (position - first + SlotHeader.fullSize)).data.toList with
    | error fault => rfl
    | ok header =>
      have hsize := slotSize_lt (SlotHeader.decode_facts hdecode).1
      dsimp only
      rw [narrow_of_lt (by omega)]
      exact ih header (Nat.le_trans hfirst (Nat.le_add_right _ _))
  | case2 position hge =>
    rw [reaches, Region.reaches, if_neg hge, if_neg hge]
    rfl

private theorem reaches_eq_error {page : ByteArray} {first target position : Nat} {e : StoreError}
    (h : Region.reaches page first target position = .error e) : ∃ offset damage, e = .corruption offset damage := by
  induction position using reaches.induct target with
  | case1 position hlt ih =>
    rw [Region.reaches, if_pos hlt] at h
    dsimp only at h
    split at h
    · cases h
      exact ⟨_, _, rfl⟩
    · exact ih _ h
  | case2 position hge =>
    rw [Region.reaches, if_neg hge] at h
    cases h

/-- What is found to be no slot is none. -/
private theorem not_hasSlot (husable : contract.Usable storage) (himage : contract.image storage = img)
    (h : region.Fits img) {id : RecordId} {after : σ} (hok : region.isSlot id storage = (.ok false, after)) :
    ¬region.HasSlot img id := by
  intro hslot
  obtain ⟨-, -, hanswer | ⟨-, cause, hanswer⟩⟩ := (hslot.answers h contract).of_ok husable himage hok <;> cases hanswer

section

variable (husable : contract.Usable storage) (himage : contract.image storage = img) (h : region.Fits img)
  (hstop : region.stop < 2 ^ 63) (hmay : Bears contract may)
include husable himage h hstop hmay

private theorem isSlotStart_agrees {offset : Nat} (hlow : FileHeader.size ≤ offset) (hoffset : offset < region.stop) :
    AgreesOn contract may (isSlotStart contract.extent region offset) (region.isSlotStart offset) storage := by
  have hbound : region.stop ≤ (contract.image storage).size := himage ▸ h.bound
  have hpos : offset < region.pageEnd offset := by
    rw [region.pageEnd_eq, h.pageSize]
    exact lt_endOfPage h.supported.pos offset
  have hfirst : max (region.pageStart offset) FileHeader.size ≤ offset :=
    Nat.max_le.2 ⟨Nat.div_mul_le_self _ _, hlow⟩
  unfold isSlotStart Region.isSlotStart
  dsimp only
  split
  · exact Agrees.pure husable true
  rw [pageEnd_of_le h hstop (Nat.le_of_lt hoffset), check_ok_bind, subtract_of_le (by omega), check_ok_bind]
  refine Agrees.step (readBytes_agrees husable (by omega) hmay.io) fun page after hread husable' _ => ?_
  have hsize : page.size = min (region.pageEnd offset) region.stop - max (region.pageStart offset) FileHeader.size :=
    size_of_read husable (by omega) hread
  rw [reaches_eq (Nat.le_refl _) (by omega) (by omega), check_ok_bind]
  refine Agrees.ofExcept husable' fun e he => ?_
  obtain ⟨_, _, rfl⟩ := reaches_eq_error he
  exact hmay.corruption _ _

theorem isSlot_agrees (target : RecordId) :
    AgreesOn contract may (isSlot contract.extent region target) (region.isSlot target) storage := by
  unfold isSlot Region.isSlot
  split
  · rename_i hcontains
    have hrange : FileHeader.size ≤ target.offset ∧ target.offset < region.stop := by
      simpa [Region.contains] using hcontains
    exact isSlotStart_agrees husable himage h hstop hmay hrange.1 hrange.2
  · exact Agrees.pure husable false

private theorem follow_agrees (maxHops : Nat) (id current : RecordId) (header : SlotHeader) (passed : List Redirect)
    (hnotFound : passed = [] → ∀ capacity, header = .padding capacity → may (.notFound id)) :
    AgreesOn contract may (follow contract.extent region maxHops id current header passed)
      (region.follow maxHops id current header passed) storage := by
  -- each redirect uses up a hop
  induction hn : maxHops - passed.length using Nat.strongRecOn generalizing storage current header passed with
  | ind n ih =>
    unfold follow Region.follow
    cases header with
    | live capacity length origin => exact Agrees.pure husable _
    | deleted capacity length relocated => exact Agrees.pure husable _
    | padding capacity =>
      cases hlast : passed.getLast? with
      | none => exact Agrees.fail husable (hnotFound (List.getLast?_eq_none_iff.1 hlast) capacity rfl)
      | some redirect => exact Agrees.fail husable (hmay.corruption _ _)
    | moved capacity target =>
      dsimp only
      split
      · exact Agrees.fail husable (hmay.corruption _ _)
      split
      · refine Agrees.step (isSlot_agrees husable himage h hstop hmay target) fun found after hfound husable' _ => ?_
        obtain ⟨-, himage', hrange⟩ := (Region.isSlot_repeats h h (fun _ _ _ => rfl) target).of_ok husable himage hfound
        split
        · rename_i hslot
          have hhigh := (hrange hslot).2
          refine Agrees.step (slotAt_agrees husable' himage' h hstop hmay hhigh) fun next last hnext husable'' _ => ?_
          obtain ⟨-, himage'', -⟩ := (Region.slotAt_repeats h h (fun _ _ _ => rfl) hhigh).of_ok husable' himage' hnext
          refine ih _ ?_ husable'' himage'' target next _ (fun hnil => ?_) rfl
          · rw [List.length_append, List.length_singleton]
            omega
          · exact absurd hnil (List.append_ne_nil_of_right_ne_nil _ (List.cons_ne_nil _ _))
        · exact Agrees.fail husable' (hmay.corruption _ _)
      · exact Agrees.fail husable (hmay.corruption _ _)

theorem resolve_agrees (maxHops : Nat) {id : RecordId} (hnotFound : ¬region.HasSlot img id → may (.notFound id)) :
    AgreesOn contract may (resolve contract.extent region maxHops id) (region.resolve maxHops id) storage := by
  unfold resolve Region.resolve
  refine Agrees.step (isSlot_agrees husable himage h hstop hmay id) fun found after hfound husable' _ => ?_
  obtain ⟨-, himage', hrange⟩ := (Region.isSlot_repeats h h (fun _ _ _ => rfl) id).of_ok husable himage hfound
  split
  · rename_i hslot
    have hhigh := (hrange hslot).2
    refine Agrees.step (slotAt_agrees husable' himage' h hstop hmay hhigh) fun header last hheader husable'' _ => ?_
    obtain ⟨-, himage'', hseen⟩ := (Region.slotAt_reads h hhigh σ contract).of_ok husable' himage' hheader
    refine follow_agrees husable'' himage'' h hstop hmay maxHops id id header [] fun _ capacity hpadding => ?_
    refine hnotFound fun hslot => ?_
    rcases hseen with hseen | ⟨-, cause, hseen⟩
    · exact hslot.kind capacity (hseen ▸ congrArg _ hpadding)
    · cases hseen
  · rename_i hslot
    obtain rfl : found = false := by simpa using hslot
    exact Agrees.fail husable' (hnotFound (not_hasSlot husable himage h hfound))

private theorem redirectCapacity_agrees {origin : RecordId} (horigin : origin.offset < region.stop) :
    AgreesOn contract may (redirectCapacity contract.extent region origin) (region.redirectCapacity origin) storage := by
  unfold redirectCapacity Region.redirectCapacity
  refine Agrees.step (slotAt_agrees husable himage h hstop hmay horigin) fun header after _ husable' _ => ?_
  cases header with
  | moved capacity target => exact Agrees.pure husable' capacity
  | live capacity length origin => exact Agrees.fail husable' (hmay.corruption _ _)
  | deleted capacity length relocated => exact Agrees.fail husable' (hmay.corruption _ _)
  | padding capacity => exact Agrees.fail husable' (hmay.corruption _ _)

/-! ### Scans -/

private theorem takeCensus_agrees (census : Census) :
    AgreesOn contract may (takeCensus contract.extent region census) (region.takeCensus census) storage := by
  induction census using Region.takeCensus.induct region generalizing storage with
  | case1 census hmore ih =>
    rw [takeCensus, Region.takeCensus, if_pos hmore, if_pos hmore]
    refine Agrees.step (slotAt_agrees husable himage h hstop hmay hmore) fun header after hheader husable' _ => ?_
    obtain ⟨-, himage', -⟩ := (Region.slotAt_repeats h h (fun _ _ _ => rfl) hmore).of_ok husable himage hheader
    exact ih header husable' himage'
  | case2 census hdone =>
    rw [takeCensus, Region.takeCensus, if_neg hdone, if_neg hdone]
    exact Agrees.pure husable census

private theorem extendCensus_agrees (census : Census) :
    AgreesOn contract may (extendCensus contract.extent region census) (region.extendCensus census) storage := by
  induction census using Region.extendCensus.induct region generalizing storage with
  | case1 census hmore ih =>
    rw [extendCensus, Region.extendCensus, if_pos hmore, if_pos hmore]
    have hslot := slotAt_agrees husable himage h hstop hmay hmore
    refine Agrees.step hslot.attempt fun result after hresult husable' _ => ?_
    have hheader := SlotM.eq_of_attempt hresult
    rcases result with e | header
    · cases e with
      | corruption offset damage => exact Agrees.pure husable' census -- where the slots end
      | _ => exact Agrees.fail husable' (hslot.tells _ (congrArg Prod.fst hheader))
    · dsimp only
      split
      · exact Agrees.pure husable' census
      · obtain ⟨-, himage', -⟩ := (Region.slotAt_repeats h h (fun _ _ _ => rfl) hmore).of_ok husable himage hheader
        exact ih header husable' himage'
  | case2 census hdone =>
    rw [extendCensus, Region.extendCensus, if_neg hdone, if_neg hdone]
    exact Agrees.pure husable census

theorem count_agrees : AgreesOn contract may (count contract.extent region) region.count storage :=
  (takeCensus_agrees husable himage h hstop hmay .start).step fun _ _ _ husable' _ => Agrees.pure husable' _

end

theorem recount_agrees (husable : contract.Usable storage) (himage : contract.image storage = img) (h : region.Fits img)
    (hsize : img.size < 2 ^ 63) (hmay : Bears contract may) :
    AgreesOn contract may (recount contract.extent region) region.recount storage := by
  have hstop : region.stop < 2 ^ 63 := Nat.lt_of_le_of_lt h.bound hsize
  unfold recount Region.recount
  refine Agrees.step (takeCensus_agrees husable himage h hstop hmay .start) fun census after hcensus husable' _ => ?_
  have hstart : Census.start.offset ≤ region.stop := h.start
  obtain ⟨-, himage', -⟩ := (Region.takeCensus_repeats h hstart).of_ok husable himage hcensus
  refine Agrees.step (size_agrees husable' hmay.io) fun size last hlast husable'' _ => ?_
  obtain ⟨-, himage'', hanswer⟩ := contract.size_answers.of_ok husable' himage' hlast
  obtain rfl : size = img.size := by
    rcases hanswer with hok | ⟨-, cause, herror⟩
    · exact Except.ok.inj hok
    · cases herror
  -- behind the region the scan goes on to the end of the storage
  have hwhole := h.whole (himage ▸ contract.wellFormed husable)
  exact (extendCensus_agrees husable'' himage'' hwhole hsize hmay census).step fun _ _ _ husable _ =>
    Agrees.pure husable _

/-! ### New slots -/

private theorem placement_eq (h : region.Fits img) (hwf : img.WellFormed) (hstop : region.stop < 2 ^ 63) {size : Nat}
    (hsize : size ≤ img.pageSize) : placement region size = .ok (region.placement size) := by
  have hfits := h.supported.fits
  rw [placement, pageEnd_of_le h hstop (Nat.le_refl _), narrow_of_lt (by omega)]
  obtain ⟨pageSize, stop⟩ := region
  obtain rfl : pageSize = img.pageSize := h.pageSize
  have hend := endOfPage_le_add img.pageSize stop
  dsimp only [Bind.bind, Except.bind]
  rw [Region.pageEnd_eq]
  dsimp only
  by_cases hgap : endOfPage img.pageSize stop < stop + size
  · have hroom : stop + 8 ≤ endOfPage img.pageSize stop :=
      (Region.gap_facts hwf.pages h.bound h.aligned h.supported.aligned h.supported.pos hsize hgap).2.2
    rw [Region.placement_next hgap, if_pos hgap, subtract_of_le (show stop ≤ endOfPage img.pageSize stop by omega)]
    dsimp only
    rw [subtract_of_le (show SlotHeader.paddingSize ≤ endOfPage img.pageSize stop - stop by
      unfold SlotHeader.paddingSize
      omega)]
    dsimp only
    rw [narrow_of_lt (show endOfPage img.pageSize stop - stop - SlotHeader.paddingSize < 2 ^ 32 by omega)]
    rfl
  · rw [Region.placement_here (Nat.not_lt.1 hgap), if_neg hgap]
    rfl

private theorem header_fits {offset : Nat} (header : SlotHeader)
    (h : offset + SlotHeader.fullSize ≤ contract.extent storage) :
    offset + (ofList header.encode).size ≤ (contract.image storage).size := by
  rw [size_ofList, SlotHeader.length_encode_header]
  exact Nat.le_trans (Nat.add_le_add_left header.headerSize_le _) h

theorem writeHeader_agrees (husable : contract.Usable storage) {offset : Nat} (header : SlotHeader)
    (h : offset + SlotHeader.fullSize ≤ contract.extent storage) (hio : contract.fallible → ∀ cause, may (.io cause)) :
    AgreesOn contract may (writeHeader contract.extent offset header) (Region.writeHeader offset header) storage :=
  writeBytes_agrees husable (header_fits header h) hio

/-- A header that is written takes nothing away from the region. -/
theorem fits_of_writeHeader (husable : contract.Usable storage) {offset : Nat} {header : SlotHeader}
    (h : offset + SlotHeader.fullSize ≤ contract.extent storage) (hfits : region.Fits (contract.image storage))
    {after : σ} (hok : Region.writeHeader offset header storage = (.ok (), after)) :
    region.Fits (contract.image after) := by
  have hruns : contract.Runs (Region.writeHeader offset header) (contract.image storage) fun _ img => region.Fits img :=
    contract.write_runs (header_fits header h) (hfits.of_changedWithin (.write _ (Nat.le_refl _) (Nat.le_refl _)))
      fun _ _ => hfits
  exact (hruns.of_ok husable rfl hok).2

theorem writeSlot_agrees (husable : contract.Usable storage) {offset : Nat} {header : SlotHeader}
    {payload : ByteArray} (hpayload : header.headerSize + payload.size ≤ header.slotSize)
    (h : offset + header.slotSize ≤ contract.extent storage) (hio : contract.fallible → ∀ cause, may (.io cause)) :
    AgreesOn contract may (writeSlot contract.extent offset header payload) (Region.writeSlot offset header payload)
      storage := by
  refine writeBytes_agrees husable ?_ hio
  rw [ByteArray.size_append, size_ofList, SlotHeader.length_encode_header]
  exact Nat.le_trans (Nat.add_le_add_left hpayload _) h

private theorem place_agrees (husable : contract.Usable storage) {id : RecordId} {header : SlotHeader}
    {payload : ByteArray} (hsize : header.slotSize < 2 ^ 32) (hpayload : header.headerSize + payload.size ≤ header.slotSize)
    (hio : contract.fallible → ∀ cause, may (.io cause)) :
    AgreesOn contract may (do
      let stop ← check (narrow (id.offset + header.slotSize) 64)
      unchecked (SlotM.onStorage (PagedStorage.grow stop))
      writeSlot contract.extent id.offset header payload
      return (id, stop)) (do
      SlotM.onStorage (PagedStorage.grow (id.offset + header.slotSize))
      Region.writeSlot id.offset header payload
      return (id, id.offset + header.slotSize)) storage := by
  have hlt := id.offset_lt
  have hreach := id.offset_add_le_reach (Nat.le_of_lt hsize)
  rw [narrow_of_lt (by omega), check_ok_bind]
  refine Agrees.step (grow_agrees husable hreach hio) fun _ after hgrown husable' _ => ?_
  have hroom := room_of_grow husable hreach hgrown
  exact Agrees.step (writeSlot_agrees husable' hpayload hroom hio) fun _ _ _ husable'' _ => Agrees.pure husable'' _

theorem append_agrees (husable : contract.Usable storage) (himage : contract.image storage = img) (h : region.Fits img)
    (hstop : region.stop < 2 ^ 63) (hio : contract.fallible → ∀ cause, may (.io cause))
    (hfull : ∀ offset, may (.full offset)) {header : SlotHeader} {payload : ByteArray}
    (hsize : header.slotSize ≤ img.pageSize) (hpayload : header.headerSize + payload.size ≤ header.slotSize) :
    AgreesOn contract may (append contract.extent region header payload) (region.append header payload) storage := by
  have hwf : img.WellFormed := himage ▸ contract.wellFormed husable
  have hfits := h.supported.fits
  unfold append Region.append
  rw [placement_eq h hwf hstop hsize, check_ok_bind]
  dsimp only
  cases hid : RecordId.ofOffset? (region.placement header.slotSize).offset with
  | none => exact Agrees.fail husable (hfull _)
  | some id =>
    rw [← RecordId.offset_of_ofOffset? hid]
    obtain ⟨pageSize, stop⟩ := region
    obtain rfl : pageSize = img.pageSize := h.pageSize
    by_cases hgap : endOfPage img.pageSize stop < stop + header.slotSize
    · obtain ⟨-, hend, hroom⟩ := Region.gap_facts hwf.pages h.bound h.aligned h.supported.aligned h.supported.pos hsize hgap
      rw [Region.placement_next hgap]
      refine Agrees.step (writeBytes_agrees husable ?_ hio) fun _ _ _ husable' _ => ?_
      · rw [size_ofList, SlotHeader.length_encode_header, himage]
        exact Nat.le_trans hroom hend
      · exact place_agrees husable' (by omega) hpayload hio
    · rw [Region.placement_here (Nat.not_lt.1 hgap)]
      exact Agrees.step (Agrees.pure husable ()) fun _ _ _ husable' _ => place_agrees husable' (by omega) hpayload hio

/-! ### Redirects -/

private theorem overwriteRedirects_agrees (husable : contract.Usable storage) (header : Redirect → SlotHeader)
    {redirects : List Redirect}
    (h : ∀ redirect ∈ redirects, redirect.id.offset + SlotHeader.fullSize ≤ contract.extent storage) :
    AgreesOn contract may (overwriteRedirects contract.extent header redirects)
      (Session.overwriteRedirects header redirects) storage := by
  induction redirects generalizing storage with
  | nil => exact Agrees.pure husable ()
  | cons redirect rest ih =>
    have hwrite : AgreesOn contract (fun _ => True) (writeHeader contract.extent redirect.id.offset (header redirect))
        (Region.writeHeader redirect.id.offset (header redirect)) storage :=
      writeHeader_agrees husable _ (h redirect List.mem_cons_self) fun _ _ => trivial
    refine Agrees.step hwrite.attempt fun _ after _ husable' hgrown => ih husable' fun other hother => ?_
    exact Nat.le_trans (h other (List.mem_cons_of_mem _ hother)) hgrown

private theorem bears_any : Bears contract fun _ => True := ⟨fun _ _ => trivial, fun _ _ => trivial⟩

theorem shortenChain_agrees (husable : contract.Usable storage) (himage : contract.image storage = img)
    (h : region.Fits img) (hstop : region.stop < 2 ^ 63) {origin : RecordId} (horigin : origin.offset < region.stop)
    {previous : Redirect} (hprevious : previous.id.offset + SlotHeader.fullSize ≤ region.stop) (target : RecordId)
    {passed : List Redirect} (hpassed : ∀ redirect ∈ passed, redirect.id.offset + SlotHeader.fullSize ≤ region.stop) :
    AgreesOn contract may (shortenChain contract.extent region origin previous target passed)
      (Session.shortenChain region origin previous target passed) storage := by
  have hbound := stop_le_extent himage h
  unfold shortenChain Session.shortenChain
  refine Agrees.step (Agrees.attempt (?_ : AgreesOn contract (fun _ => True) _ _ storage))
    fun shortened after _ husable' hgrown => ?_
  · -- the origin, whose capacity is known if it was passed
    cases hfind : passed.find? (·.id = origin) with
    | none =>
      refine Agrees.step (redirectCapacity_agrees husable himage h hstop bears_any horigin)
        fun capacity after hcapacity husable' hgrown => ?_
      obtain ⟨-, -, hroom, -⟩ := (Region.redirectCapacity_repeats h h (fun _ _ _ => rfl) horigin).of_ok husable himage
        hcapacity
      exact writeHeader_agrees husable' _ (Nat.le_trans hroom (Nat.le_trans hbound hgrown)) fun _ _ => trivial
    | some redirect =>
      have hid : redirect.id = origin := by simpa using List.find?_some hfind
      have hroom := hpassed redirect (List.mem_of_find?_eq_some hfind)
      rw [hid] at hroom
      exact Agrees.step (Agrees.pure husable redirect.capacity) fun capacity after _ husable' hgrown =>
        writeHeader_agrees husable' _ (Nat.le_trans hroom (Nat.le_trans hbound hgrown)) fun _ _ => trivial
  · rcases shortened with e | ⟨⟩
    · exact Agrees.pure husable' ()
    · refine overwriteRedirects_agrees husable' _ fun redirect hredirect =>
        Nat.le_trans ?_ (Nat.le_trans hbound hgrown)
      rcases List.mem_append.1 hredirect with hredirect | hredirect
      · exact hpassed redirect (List.mem_of_mem_filter hredirect)
      · rw [List.mem_singleton.1 hredirect]
        exact hprevious

theorem redirectsToBury_agrees (husable : contract.Usable storage) (himage : contract.image storage = img)
    (h : region.Fits img) (hstop : region.stop < 2 ^ 63) {origin : Option RecordId}
    (horigin : ∀ id ∈ origin, id.offset < region.stop) (passed : List Redirect) :
    AgreesOn contract may (redirectsToBury contract.extent region origin passed)
      (Session.redirectsToBury region origin passed) storage := by
  unfold redirectsToBury Session.redirectsToBury
  cases hfilter : origin.filter fun origin => !passed.any (·.id = origin) with
  | none => exact Agrees.pure husable passed
  | some id =>
    have hid : id.offset < region.stop := horigin id (Option.filter_eq_some_iff.1 hfilter).1
    have hcapacity := redirectCapacity_agrees husable himage h hstop bears_any hid
    refine Agrees.step hcapacity.attempt fun result after _ husable' _ => ?_
    cases result with
    | error e => exact Agrees.pure husable' passed
    | ok capacity => exact Agrees.pure husable' _

/-- What is buried lies in the region. -/
theorem room_of_redirectsToBury (husable : contract.Usable storage) (himage : contract.image storage = img)
    (h : region.Fits img) {origin : Option RecordId} (horigin : ∀ id ∈ origin, id.offset < region.stop)
    {passed redirects : List Redirect}
    (hpassed : ∀ redirect ∈ passed, redirect.id.offset + SlotHeader.fullSize ≤ region.stop) {after : σ}
    (hok : Session.redirectsToBury region origin passed storage = (.ok redirects, after)) :
    ∀ redirect ∈ redirects, redirect.id.offset + SlotHeader.fullSize ≤ region.stop := by
  unfold Session.redirectsToBury at hok
  cases hfilter : origin.filter fun origin => !passed.any (·.id = origin) with
  | none =>
    rw [hfilter] at hok
    cases hok
    exact hpassed
  | some id =>
    have hid : id.offset < region.stop := horigin id (Option.filter_eq_some_iff.1 hfilter).1
    rw [hfilter] at hok
    dsimp only at hok
    rw [bind_apply] at hok
    unfold SlotM.attempt at hok
    rcases hcapacity : region.redirectCapacity id storage with ⟨e | capacity, last⟩ <;> rw [hcapacity] at hok <;>
      cases hok
    · exact hpassed
    · obtain ⟨-, -, hroom, -⟩ := (Region.redirectCapacity_repeats h h (fun _ _ _ => rfl) hid).of_ok husable himage
        hcapacity
      intro redirect hredirect
      rcases List.mem_append.1 hredirect with hredirect | hredirect
      · exact hpassed redirect hredirect
      · rw [List.mem_singleton.1 hredirect]
        exact hroom

/-- What follows a deletion. -/
theorem bury_agrees (husable : contract.Usable storage) (himage : contract.image storage = img) (h : region.Fits img)
    (hstop : region.stop < 2 ^ 63) {origin : Option RecordId} (horigin : ∀ id ∈ origin, id.offset < region.stop)
    {passed : List Redirect} (hpassed : ∀ redirect ∈ passed, redirect.id.offset + SlotHeader.fullSize ≤ region.stop)
    (header : Redirect → SlotHeader) :
    AgreesOn contract may (do
      let redirects ← redirectsToBury contract.extent region origin passed
      overwriteRedirects contract.extent header redirects) (do
      let redirects ← Session.redirectsToBury region origin passed
      Session.overwriteRedirects header redirects) storage := by
  have hbound := stop_le_extent himage h
  refine Agrees.step (redirectsToBury_agrees husable himage h hstop horigin passed)
    fun redirects after hredirects husable' hgrown => ?_
  have hroom := room_of_redirectsToBury husable himage h horigin hpassed hredirects
  exact overwriteRedirects_agrees husable' header fun redirect hredirect =>
    Nat.le_trans (hroom redirect hredirect) (Nat.le_trans hbound hgrown)

end CheckedRegion

end RecordStore
