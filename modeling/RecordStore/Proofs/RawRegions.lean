import Mathlib.Tactic.SplitIfs
import RecordStore.Proofs.Writing
import RecordStore.Region.Census

/-!
# Regions of any bytes

What can be said of work on a region without knowing what stands in it (`Region.Fits`).  Reading stays inside the
region and depends on nothing behind it: what is answered from one image is answered from every image that has the
same bytes up to the end of the region (`Repeats`, with one rule for each way in which such work is put together).
Appending writes behind the region only, and nothing at all if there is no identifier left (`append_runs_raw`).
-/

namespace RecordStore

open Bytes StorageView

variable {α β : Type}

/-! ### Work that only reads -/

/-- Work that changes nothing and whose result depends on the image only. -/
def Reads (act : ∀ (σ : Type) [PagedStorage σ], SlotM σ α) (img : Image) (result : Except StoreError α) : Prop :=
  ∀ (σ : Type) [PagedStorage σ] (contract : StorageContract σ), contract.Answers (act σ) img result

/-- Work that only reads, with an answer as `post` says if it has one, and with the same answer on `img'` as on
`img`. -/
def Repeats (act : ∀ (σ : Type) [PagedStorage σ], SlotM σ α) (img img' : Image) (post : α → Prop) : Prop :=
  ∃ result result', Reads act img result ∧ Reads act img' result' ∧ (∀ a, result = .ok a → result' = .ok a) ∧
    ∀ a, result = .ok a ∨ result' = .ok a → post a

theorem StorageView.Answers.bind_error {σ : Type} {view : StorageView σ} {img : Image} {act : SlotM σ α}
    {e : StoreError} (h : view.Answers act img (.error e)) (next : α → SlotM σ β) :
    view.Answers (act >>= next) img (.error e) := by
  refine Runs.bind h ?_ ?_
  · rintro a after ⟨-, h | ⟨-, cause, h⟩⟩ <;> cases h
  · rintro e' after ⟨rfl, h | ⟨hfallible, cause, h⟩⟩
    · cases h
      exact ⟨rfl, .inl rfl⟩
    · cases h
      exact ⟨rfl, .inr ⟨hfallible, cause, rfl⟩⟩

namespace Repeats

variable {act : ∀ (σ : Type) [PagedStorage σ], SlotM σ α} {img img' : Image} {post : α → Prop}

theorem mono {post' : α → Prop} (h : Repeats act img img' post) (himp : ∀ a, post a → post' a) :
    Repeats act img img' post' := by
  obtain ⟨result, result', hreads, hreads', hsame, hpost⟩ := h
  exact ⟨result, result', hreads, hreads', hsame, fun a ha => himp a (hpost a ha)⟩

theorem pure {a : α} (h : post a) : Repeats (fun σ _ => (Pure.pure a : SlotM σ α)) img img' post := by
  refine ⟨.ok a, .ok a, fun _ _ _ => Answers.pure a, fun _ _ _ => Answers.pure a, fun _ h => h, ?_⟩
  rintro b (⟨⟨⟩⟩ | ⟨⟨⟩⟩) <;> exact h

theorem throw (e : StoreError) : Repeats (fun σ _ => (MonadExcept.throw e : SlotM σ α)) img img' post := by
  refine ⟨.error e, .error e, fun _ _ _ => Answers.throw e, fun _ _ _ => Answers.throw e, fun _ h => h, ?_⟩
  rintro b (h | h) <;> cases h

theorem ofExcept {result : Except StoreError α} (h : ∀ a, result = .ok a → post a) :
    Repeats (fun σ _ => (liftExcept result : SlotM σ α)) img img' post := by
  cases result with
  | error e => exact throw e
  | ok a => exact pure (h a rfl)

theorem ite {act' : ∀ (σ : Type) [PagedStorage σ], SlotM σ α} {c : Prop} [Decidable c]
    (h : c → Repeats act img img' post) (h' : ¬c → Repeats act' img img' post) :
    Repeats (fun σ _ => if c then act σ else act' σ) img img' post := by
  by_cases hc : c
  · simp only [if_pos hc]
    exact h hc
  · simp only [if_neg hc]
    exact h' hc

theorem bind {next : ∀ (σ : Type) [PagedStorage σ], α → SlotM σ β} {mid : α → Prop} {post : β → Prop}
    (h : Repeats act img img' mid) (hnext : ∀ a, mid a → Repeats (fun σ _ => next σ a) img img' post) :
    Repeats (fun σ _ => act σ >>= next σ) img img' post := by
  obtain ⟨result, result', hreads, hreads', hsame, hmid⟩ := h
  rcases result with e | a
  · rcases result' with e' | b
    · refine ⟨.error e, .error e', fun σ _ contract => (hreads σ contract).bind_error _,
        fun σ _ contract => (hreads' σ contract).bind_error _, nofun, ?_⟩
      rintro b (h | h) <;> cases h
    · obtain ⟨_, last', _, hlast', _, hpost⟩ := hnext b (hmid b (.inr rfl))
      refine ⟨.error e, last', fun σ _ contract => (hreads σ contract).bind_error _,
        fun σ _ contract => (hreads' σ contract).bind (hlast' σ contract), nofun, ?_⟩
      rintro c (h | h)
      · cases h
      · exact hpost c (.inr h)
  · obtain rfl := hsame a rfl
    obtain ⟨last, last', hlast, hlast', hsame', hpost⟩ := hnext a (hmid a (.inl rfl))
    exact ⟨last, last', fun σ _ contract => (hreads σ contract).bind (hlast σ contract),
      fun σ _ contract => (hreads' σ contract).bind (hlast' σ contract), hsame', hpost⟩

theorem read {offset length : Nat} (h : offset + length ≤ img.size) (h' : offset + length ≤ img'.size)
    (hsame : img.AgreeOn img' offset (offset + length)) :
    Repeats (fun σ _ => (SlotM.onStorage (PagedStorage.read offset length) : SlotM σ ByteArray)) img img'
      fun _ => True := by
  refine ⟨.ok (img.read offset length), .ok (img'.read offset length), fun σ _ contract => contract.read_answers h,
    fun σ _ contract => contract.read_answers h', fun bytes hok => ?_, fun _ _ => trivial⟩
  rw [hsame.read_eq]
  exact hok

/-- The work on one image, with a postcondition. -/
theorem runs (h : Repeats act img img post) {σ : Type} [PagedStorage σ] (contract : StorageContract σ)
    {post' : Except StoreError α → Image → Prop} (hok : ∀ a, post a → post' (.ok a) img)
    (herror : ∀ e, post' (.error e) img) : contract.Runs (act σ) img post' := by
  obtain ⟨result, _, hreads, _, _, hpost⟩ := h
  refine (hreads σ contract).mono ?_
  rintro result' _ ⟨rfl, rfl | ⟨-, cause, rfl⟩⟩
  · cases result' with
    | error e => exact herror e
    | ok a => exact hok a (hpost a (.inl rfl))
  · exact herror _

/-- What one storage with the first image answers, every storage with the second image answers, unless a call fails. -/
theorem answer (h : Repeats act img img' post) {σ τ : Type} [PagedStorage σ] [PagedStorage τ]
    (contract : StorageContract σ) (contract' : StorageContract τ) {storage : σ} {storage' : τ}
    (husable : contract.Usable storage) (husable' : contract'.Usable storage') (himage : contract.image storage = img)
    (himage' : contract'.image storage' = img') {a : α} (hok : (act σ storage).1 = .ok a) :
    (act τ storage').1 = .ok a ∨ contract'.fallible ∧ ∃ cause, (act τ storage').1 = .error (.io cause) := by
  obtain ⟨result, result', hreads, hreads', hsame, -⟩ := h
  obtain ⟨-, -, hresult | ⟨-, cause, hresult⟩⟩ := hreads σ contract storage husable himage
  · rw [hok] at hresult
    obtain ⟨-, -, hresult'⟩ := hreads' τ contract' storage' husable' himage'
    rwa [hsame a hresult.symm] at hresult'
  · rw [hok] at hresult
    cases hresult

end Repeats

/-! ### Reading -/

/-- What an open session knows of its region: it lies in the storage, behind the file header, and ends where a slot
may end. -/
structure Region.Fits (region : Region) (img : Image) : Prop where
  pageSize : region.pageSize = img.pageSize
  supported : SupportedPageSize img.pageSize
  start : FileHeader.size ≤ region.stop
  bound : region.stop ≤ img.size
  aligned : region.stop % alignment = 0

/-- The slot that was found, and the redirects that were passed, lie in the region. -/
structure Resolution.Inside (found : Resolution) (stop : Nat) : Prop where
  valid : found.header.Valid found.id.offset
  low : FileHeader.size ≤ found.id.offset
  slot : found.id.offset + found.header.slotSize ≤ stop
  passed : ∀ redirect ∈ found.passed, FileHeader.size ≤ redirect.id.offset ∧
    redirect.id.offset + SlotHeader.fullSize ≤ stop

namespace Resolution.Inside

variable {found : Resolution} {stop capacity length : Nat} {origin : Option RecordId}

/-- So does the room of a record. -/
theorem room (h : found.Inside stop) (hlive : found.header = .live capacity length origin) :
    found.id.offset + SlotHeader.fullSize + capacity ≤ stop := by
  have hslot := h.slot
  have hsize : SlotHeader.fullSize + capacity ≤ _ := (SlotHeader.live capacity length origin).size_le_slotSize
  rw [hlive] at hslot
  omega

/-- And so does the place that a record has for its origin. -/
theorem origin_lt (h : found.Inside stop) (hlive : found.header = .live capacity length origin) :
    ∀ first ∈ origin, first.offset < stop := by
  intro first hfirst
  have hvalid := h.valid
  have hroom := h.room hlive
  rw [hlive] at hvalid
  have hlow : first.offset < found.id.offset := hvalid.2.2 first hfirst
  omega

theorem first_lt (h : found.Inside stop) (hlive : found.header = .live capacity length origin) :
    (origin.getD found.id).offset < stop := by
  cases origin with
  | none =>
    have hroom := h.room hlive
    exact Nat.lt_of_lt_of_le (Nat.lt_add_of_pos_right (by decide)) (Nat.le_trans (Nat.le_add_right _ _) hroom)
  | some first => exact h.origin_lt hlive first rfl

end Resolution.Inside

namespace Region

variable {region : Region} {img img' : Image}

/-- What is written to the storage takes nothing away from the region. -/
theorem Fits.of_changedWithin (h : region.Fits img) {start stop : Nat} (hchanged : img.ChangedWithin img' start stop) :
    region.Fits img' := by
  have hsupported := h.supported
  rw [← hchanged.pageSize] at hsupported
  exact ⟨h.pageSize.trans hchanged.pageSize.symm, hsupported, h.start, Nat.le_trans h.bound hchanged.size, h.aligned⟩

theorem Fits.pageEnd_le (h : region.Fits img) (hwf : img.WellFormed) {offset : Nat} (hoffset : offset < region.stop) :
    region.pageEnd offset ≤ img.size := by
  rw [region.pageEnd_eq, h.pageSize]
  exact endOfPage_le (Nat.lt_of_lt_of_le hoffset h.bound) hwf.pages

/-- What the bytes at `offset` say of the slot there. -/
def slotSeen (region : Region) (img : Image) (offset : Nat) : Except StoreError SlotHeader :=
  match SlotHeader.decode offset
      (img.read offset (min (region.pageEnd offset - offset) SlotHeader.fullSize)).data.toList with
  | .error fault => .error (.corruption offset fault)
  | .ok header =>
    if region.pageEnd offset < offset + header.slotSize ∨ region.stop < offset + header.slotSize then
      .error (.corruption offset (.overrun header.slotSize))
    else .ok header

theorem slotAt_reads (h : region.Fits img) {offset : Nat} (hoffset : offset < region.stop) :
    Reads (fun σ _ => (region.slotAt offset : SlotM σ SlotHeader)) img (region.slotSeen img offset) := by
  intro σ _ contract
  refine contract.runs_of_wellFormed fun hwf => ?_
  have hend := h.pageEnd_le hwf hoffset
  have hpos : offset < region.pageEnd offset := by
    rw [region.pageEnd_eq, h.pageSize]
    exact lt_endOfPage h.supported.pos offset
  unfold slotAt slotSeen
  refine (contract.read_answers (by omega)).bind ?_
  cases SlotHeader.decode offset
      (img.read offset (min (region.pageEnd offset - offset) SlotHeader.fullSize)).data.toList with
  | error fault => exact Answers.throw _
  | ok header =>
    dsimp only
    split_ifs
    · exact Answers.throw _
    · exact Answers.pure _

theorem slotSeen_eq_ok {offset : Nat} {header : SlotHeader} (h : region.slotSeen img offset = .ok header) :
    SlotHeader.decode offset
        (img.read offset (min (region.pageEnd offset - offset) SlotHeader.fullSize)).data.toList = .ok header ∧
      offset + header.slotSize ≤ region.pageEnd offset ∧ offset + header.slotSize ≤ region.stop ∧
      img.Holds offset (ofList header.encode) := by
  unfold slotSeen at h
  split at h
  · cases h
  · rename_i header' hdecode
    split_ifs at h with hover
    cases h
    exact ⟨hdecode, by omega, by omega, Image.holds_of_prefix (SlotHeader.encode_of_decode hdecode)⟩

theorem slotSeen_of_decode {offset : Nat} {header : SlotHeader}
    (hdecode : SlotHeader.decode offset
      (img.read offset (min (region.pageEnd offset - offset) SlotHeader.fullSize)).data.toList = .ok header)
    (hpage : offset + header.slotSize ≤ region.pageEnd offset) (hstop : offset + header.slotSize ≤ region.stop) :
    region.slotSeen img offset = .ok header := by
  unfold slotSeen
  rw [hdecode]
  exact if_neg (by omega)

theorem slotSeen_eq_error {offset : Nat} {e : StoreError} (h : region.slotSeen img offset = .error e) :
    ∃ fault, e = .corruption offset fault := by
  unfold slotSeen at h
  split at h
  · cases h
    exact ⟨_, rfl⟩
  · split_ifs at h
    cases h
    exact ⟨_, rfl⟩

/-- What is read of a slot depends on what stands in the region only. -/
theorem slotAt_repeats (h : region.Fits img) (h' : region.Fits img') (hsame : img.AgreeOn img' 0 region.stop)
    {offset : Nat} (hoffset : offset < region.stop) :
    Repeats (fun σ _ => (region.slotAt offset : SlotM σ SlotHeader)) img img'
      fun header => header.Valid offset ∧ offset + header.slotSize ≤ region.stop ∧
        offset + header.slotSize ≤ region.pageEnd offset ∧ img.Holds offset (ofList header.encode) := by
  refine ⟨_, _, slotAt_reads h hoffset, slotAt_reads h' hoffset, fun header hok => ?_, ?_⟩
  · obtain ⟨hdecode, hpage, hstop, -⟩ := slotSeen_eq_ok hok
    obtain ⟨-, hlength, hcongr⟩ := SlotHeader.decode_facts hdecode
    have hheader := header.size_le_slotSize
    generalize hread : min (region.pageEnd offset - offset) SlotHeader.fullSize = length at *
    have hlength' : header.headerSize ≤ length := by simpa using hlength
    have hbytes : img'.read offset header.headerSize = img.read offset header.headerSize :=
      (hsame.mono (Nat.zero_le _) (by omega)).read_eq
    have htake : (img'.read offset length).data.toList.take header.headerSize =
        (img.read offset length).data.toList.take header.headerSize := by
      rw [Image.take_toList_read _ _ hlength', Image.take_toList_read _ _ hlength', hbytes]
    unfold slotSeen
    rw [hread, hcongr _ htake]
    dsimp only
    rw [if_neg (by omega)]
  · rintro header (hok | hok)
    · obtain ⟨hdecode, hpage, hstop, hholds⟩ := slotSeen_eq_ok hok
      exact ⟨(SlotHeader.decode_facts hdecode).1, hstop, hpage, hholds⟩
    · obtain ⟨hdecode, hpage, hstop, hholds⟩ := slotSeen_eq_ok hok
      have hheader := header.size_le_slotSize
      refine ⟨(SlotHeader.decode_facts hdecode).1, hstop, hpage,
        hholds.congr fun i _ hi => (hsame i (Nat.zero_le _) ?_).symm⟩
      rw [size_ofList, SlotHeader.length_encode_header] at hi
      omega

private theorem isSlotStart_repeats (h : region.Fits img) (h' : region.Fits img')
    (hsame : img.AgreeOn img' 0 region.stop) {offset : Nat} (hlow : FileHeader.size ≤ offset)
    (hoffset : offset < region.stop) :
    Repeats (fun σ _ => (region.isSlotStart offset : SlotM σ Bool)) img img' fun _ => True := by
  have hbound := h.bound
  have hbound' := h'.bound
  have hpos : offset < region.pageEnd offset := by
    rw [region.pageEnd_eq, h.pageSize]
    exact lt_endOfPage h.supported.pos offset
  have hstart : region.pageStart offset ≤ offset := Nat.div_mul_le_self _ _
  unfold isSlotStart
  dsimp only
  refine .ite (fun _ => .pure trivial) fun _ => ?_
  refine .bind (.read (by omega) (by omega) (hsame.mono (Nat.zero_le _) (by omega))) fun page _ => ?_
  exact .ofExcept fun _ _ => trivial

theorem isSlot_repeats (h : region.Fits img) (h' : region.Fits img') (hsame : img.AgreeOn img' 0 region.stop)
    (id : RecordId) :
    Repeats (fun σ _ => (region.isSlot id : SlotM σ Bool)) img img' fun found => found = true →
      FileHeader.size ≤ id.offset ∧ id.offset < region.stop := by
  unfold isSlot
  refine .ite (fun hcontains => ?_) fun _ => .pure nofun
  have hrange : FileHeader.size ≤ id.offset ∧ id.offset < region.stop := by simpa [contains] using hcontains
  exact (isSlotStart_repeats h h' hsame hrange.1 hrange.2).mono fun _ _ _ => hrange

private theorem fullSize_le_moved (capacity : Nat) (target : RecordId) :
    SlotHeader.fullSize ≤ (SlotHeader.moved capacity target).slotSize :=
  Nat.le_trans (Nat.le_add_right SlotHeader.fullSize capacity) (SlotHeader.moved capacity target).size_le_slotSize

/-- A redirect starts with the tag of redirects. -/
private theorem byte_of_moved {capacity offset : Nat} {target : RecordId}
    (h : img.Holds offset (ofList (SlotHeader.moved capacity target).encode)) :
    img.byte offset = SlotHeader.movedTag := h 0 (by simp [SlotHeader.encode])

theorem redirectCapacity_repeats (h : region.Fits img) (h' : region.Fits img')
    (hsame : img.AgreeOn img' 0 region.stop) {id : RecordId} (hid : id.offset < region.stop) :
    Repeats (fun σ _ => (region.redirectCapacity id : SlotM σ Nat)) img img'
      fun _ => id.offset + SlotHeader.fullSize ≤ region.stop ∧ img.byte id.offset = SlotHeader.movedTag := by
  unfold redirectCapacity
  refine .bind (slotAt_repeats h h' hsame hid) fun header hheader => ?_
  cases header with
  | moved capacity target =>
    have hsize := fullSize_le_moved capacity target
    exact .pure ⟨by omega, byte_of_moved hheader.2.2.2⟩
  | live capacity length origin => exact .throw _
  | deleted capacity length relocated => exact .throw _
  | padding capacity => exact .throw _

private theorem follow_repeats (h : region.Fits img) (h' : region.Fits img') (hsame : img.AgreeOn img' 0 region.stop)
    (maxHops : Nat) (id current : RecordId) {header : SlotHeader} {passed : List Redirect}
    (hinside : ({ id := current, header, passed } : Resolution).Inside region.stop) :
    Repeats (fun σ _ => (region.follow maxHops id current header passed : SlotM σ Resolution)) img img'
      fun found => found.Inside region.stop := by
  -- each redirect uses up a hop
  induction hn : maxHops - passed.length using Nat.strongRecOn generalizing current header passed with
  | ind n ih =>
    unfold follow
    cases header with
    | live capacity length origin => exact .pure hinside
    | deleted capacity length relocated => exact .pure hinside
    | padding capacity => cases passed.getLast? <;> exact .throw _
    | moved capacity target =>
      have hpassed : ∀ redirect ∈ passed ++ [{ id := current, capacity }],
          FileHeader.size ≤ redirect.id.offset ∧ redirect.id.offset + SlotHeader.fullSize ≤ region.stop := by
        intro redirect hredirect
        rcases List.mem_append.1 hredirect with hredirect | hredirect
        · exact hinside.passed redirect hredirect
        · obtain rfl := List.mem_singleton.1 hredirect
          have hslot := hinside.slot
          have hsize := fullSize_le_moved capacity target
          refine ⟨hinside.low, ?_⟩
          dsimp only at hslot ⊢
          omega
      refine .ite (fun _ => .throw _) fun _ => .ite (fun hlt => ?_) fun _ => .throw _
      refine .bind (isSlot_repeats h h' hsame target) fun found hfound => ?_
      refine .ite (fun hslot => ?_) fun _ => .throw _
      obtain ⟨hlow, hhigh⟩ := hfound hslot
      refine .bind (slotAt_repeats h h' hsame hhigh) fun next hnext => ?_
      refine ih _ ?_ target ⟨hnext.1, hlow, hnext.2.1, hpassed⟩ rfl
      rw [List.length_append, List.length_singleton]
      omega

theorem resolve_repeats (h : region.Fits img) (h' : region.Fits img') (hsame : img.AgreeOn img' 0 region.stop)
    (maxHops : Nat) (id : RecordId) :
    Repeats (fun σ _ => (region.resolve maxHops id : SlotM σ Resolution)) img img'
      fun found => found.Inside region.stop := by
  unfold resolve
  refine .bind (isSlot_repeats h h' hsame id) fun found hfound => ?_
  refine .ite (fun hslot => ?_) fun _ => .throw _
  obtain ⟨hlow, hhigh⟩ := hfound hslot
  refine .bind (slotAt_repeats h h' hsame hhigh) fun header hheader => ?_
  exact follow_repeats h h' hsame maxHops id id ⟨hheader.1, hlow, hheader.2.1, nofun⟩

/-- Looking up the payload of a record. -/
def lookUp {σ : Type} [PagedStorage σ] (region : Region) (maxHops : Nat) (id : RecordId) : SlotM σ ByteArray := do
  let found ← region.resolve maxHops id
  match found.header with
  | .live _ length _ => SlotM.onStorage (PagedStorage.read (found.id.offset + SlotHeader.fullSize) length)
  | _ => throw (.deleted id)

/-- Looking up the slot of a record. -/
def locate {σ : Type} [PagedStorage σ] (region : Region) (maxHops : Nat) (id : RecordId) : SlotM σ RecordId := do
  let found ← region.resolve maxHops id
  match found.header with
  | .live .. => return found.id
  | _ => throw (.deleted id)

theorem lookUp_repeats (h : region.Fits img) (h' : region.Fits img') (hsame : img.AgreeOn img' 0 region.stop)
    (maxHops : Nat) (id : RecordId) :
    Repeats (fun σ _ => (region.lookUp maxHops id : SlotM σ ByteArray)) img img' fun _ => True := by
  unfold lookUp
  refine .bind (resolve_repeats h h' hsame maxHops id) fun found hinside => ?_
  obtain ⟨at', header, passed⟩ := found
  cases header with
  | live capacity length origin =>
    have hvalid : (SlotHeader.live capacity length origin).Valid at'.offset := hinside.valid
    have hslot : at'.offset + (SlotHeader.live capacity length origin).slotSize ≤ region.stop := hinside.slot
    have hlength := hvalid.payload_le
    have hpayload : at'.offset + SlotHeader.fullSize + length ≤ region.stop := by omega
    exact .read (Nat.le_trans hpayload h.bound) (Nat.le_trans hpayload h'.bound)
      (hsame.mono (Nat.zero_le _) hpayload)
  | moved capacity target => exact .throw _
  | deleted capacity length relocated => exact .throw _
  | padding capacity => exact .throw _

theorem locate_repeats (h : region.Fits img) (h' : region.Fits img') (hsame : img.AgreeOn img' 0 region.stop)
    (maxHops : Nat) (id : RecordId) :
    Repeats (fun σ _ => (region.locate maxHops id : SlotM σ RecordId)) img img' fun _ => True := by
  unfold locate
  refine .bind (resolve_repeats h h' hsame maxHops id) fun found _ => ?_
  cases found.header with
  | live capacity length origin => exact .pure trivial
  | moved capacity target => exact .throw _
  | deleted capacity length relocated => exact .throw _
  | padding capacity => exact .throw _

/-! ### Counting -/

/-- The offset reached is one where the slots up to `stop` may end. -/
structure Reached (offset stop : Nat) : Prop where
  start : FileHeader.size ≤ offset
  aligned : offset % alignment = 0
  stop : offset ≤ stop

theorem Reached.count {census : Census} {header : SlotHeader} {stop : Nat} (h : Reached census.offset stop)
    (hend : census.offset + header.slotSize ≤ stop) : Reached (census.count header).offset stop := by
  have hmod := header.slotSize_mod
  have haligned := h.aligned
  have hstart := h.start
  have hoffset : (census.count header).offset = census.offset + header.slotSize := rfl
  unfold alignment at hmod haligned
  refine ⟨by omega, ?_, by omega⟩
  unfold alignment
  omega

/-- The slots in the region, one after another, take one census to another. -/
inductive Counts (region : Region) (img : Image) : Census → Census → Prop
  | refl (census : Census) : Counts region img census census
  | step {census census' : Census} {header : SlotHeader} (hlt : census.offset < region.stop)
      (hseen : region.slotSeen img census.offset = .ok header)
      (hrest : Counts region img (census.count header) census') : Counts region img census census'

/-- A census that goes on ends here: at the end of the region, where no slot can be read, or at an orphan. -/
def Ends (region : Region) (img : Image) (census : Census) : Prop :=
  census.offset < region.stop → (∃ fault, region.slotSeen img census.offset = .error (.corruption census.offset fault)) ∨
    ∃ header, region.slotSeen img census.offset = .ok header ∧ census.isOrphan header

namespace Counts

variable {census census' census'' : Census}

theorem trans (h : Counts region img census census') (h' : Counts region img census' census'') :
    Counts region img census census'' := by
  induction h with
  | refl => exact h'
  | step hlt hseen _ ih => exact .step hlt hseen (ih h')

theorem le (h : Counts region img census census') : census.offset ≤ census'.offset := by
  induction h with
  | refl => exact Nat.le_refl _
  | @step census _ header _ _ _ ih => exact Nat.le_trans (Nat.le_add_right census.offset header.slotSize) ih

theorem reached (h : Counts region img census census') (hcensus : Reached census.offset region.stop) :
    Reached census'.offset region.stop := by
  induction h with
  | refl => exact hcensus
  | step _ hseen _ ih => exact ih (hcensus.count (slotSeen_eq_ok hseen).2.2.1)

/-- What is counted lies in front of the offset reached, so the region may as well end there. -/
theorem within (h : Counts region img census census') {stop : Nat} (hstop : census'.offset ≤ stop) :
    Counts { region with stop } img census census' := by
  induction h with
  | refl => exact .refl _
  | @step census census' header hlt hseen hrest ih =>
    have hpos := header.slotSize_pos
    have hle : census.offset + header.slotSize ≤ census'.offset := hrest.le
    obtain ⟨hdecode, hpage, -, -⟩ := slotSeen_eq_ok hseen
    refine .step (show census.offset < stop by omega) ?_ (ih hstop)
    exact slotSeen_of_decode hdecode hpage (Nat.le_trans hle hstop)

/-- What is counted up to the end of the region is what a census takes. -/
theorem takeCensus_reads (h : Counts region img census census') (hfits : region.Fits img)
    (hend : census'.offset = region.stop) :
    Reads (fun σ _ => (region.takeCensus census : SlotM σ Census)) img (.ok census') := by
  intro σ _ contract
  change contract.Answers (region.takeCensus census) img _
  induction h with
  | refl census =>
    rw [takeCensus, if_neg (by omega)]
    exact Answers.pure census
  | @step census census' header hlt hseen _ ih =>
    rw [takeCensus, if_pos hlt]
    have hslot : contract.Answers (region.slotAt census.offset) img (.ok header) := hseen ▸ slotAt_reads hfits hlt σ contract
    exact hslot.bind (ih hend)

end Counts

theorem takeCensus_repeats (h : region.Fits img) {census : Census} (hcensus : census.offset ≤ region.stop) :
    Repeats (fun σ _ => (region.takeCensus census : SlotM σ Census)) img img fun census' =>
      Counts region img census census' ∧ census'.offset = region.stop := by
  induction hn : region.stop - census.offset using Nat.strongRecOn generalizing census with
  | ind n ih =>
    unfold takeCensus
    refine .ite (fun hlt => ?_) fun _ => .pure ⟨.refl census, by omega⟩
    have hslot : Repeats (fun σ _ => (region.slotAt census.offset : SlotM σ SlotHeader)) img img fun header =>
        region.slotSeen img census.offset = .ok header :=
      ⟨_, _, slotAt_reads h hlt, slotAt_reads h hlt, fun _ hok => hok, fun _ hok => hok.elim id id⟩
    refine .bind hslot fun header hseen => ?_
    have hend : (census.count header).offset ≤ region.stop := (slotSeen_eq_ok hseen).2.2.1
    have hpos := header.slotSize_pos
    have hless : region.stop - (census.count header).offset < n := by
      change region.stop - (census.offset + header.slotSize) < n
      omega
    exact (ih _ hless hend rfl).mono fun _ hcounts => ⟨.step hlt hseen hcounts.1, hcounts.2⟩

/-- Where it ends a census goes on for nothing. -/
theorem Ends.extendCensus_reads {census : Census} (h : Ends region img census) (hfits : region.Fits img) :
    Reads (fun σ _ => (region.extendCensus census : SlotM σ Census)) img (.ok census) := by
  intro σ _ contract
  change contract.Answers (region.extendCensus census) img _
  rw [extendCensus]
  by_cases hlt : census.offset < region.stop
  · rw [if_pos hlt]
    have hslot := slotAt_reads hfits hlt σ contract
    rcases h hlt with ⟨fault, hseen⟩ | ⟨header, hseen, horphan⟩
    · rw [hseen] at hslot
      exact hslot.attempt_bind (Answers.pure census) fun _ => rfl
    · rw [hseen] at hslot
      refine hslot.attempt_bind ?_ fun _ => rfl
      dsimp only
      rw [if_pos horphan]
      exact Answers.pure census
  · rw [if_neg hlt]
    exact Answers.pure census

/-- A census that goes on ends somewhere, whatever it meets. -/
theorem extendCensus_reads (h : region.Fits img) (census : Census) :
    ∃ census', Counts region img census census' ∧ Ends region img census' ∧
      Reads (fun σ _ => (region.extendCensus census : SlotM σ Census)) img (.ok census') := by
  induction hn : region.stop - census.offset using Nat.strongRecOn generalizing census with
  | ind n ih =>
    by_cases hends : Ends region img census
    · exact ⟨census, .refl census, hends, hends.extendCensus_reads h⟩
    · obtain ⟨hlt, hgoes⟩ := Classical.not_imp.1 hends
      cases hseen : region.slotSeen img census.offset with
      | error e =>
        obtain ⟨fault, rfl⟩ := slotSeen_eq_error hseen
        exact absurd (.inl ⟨fault, hseen⟩) hgoes
      | ok header =>
        have horphan : ¬census.isOrphan header := fun horphan => hgoes (.inr ⟨header, hseen, horphan⟩)
        have hpos := header.slotSize_pos
        have hoffset : (census.count header).offset = census.offset + header.slotSize := rfl
        obtain ⟨census', hcounts, hends', hreads⟩ := ih _ (by omega) (census.count header) rfl
        refine ⟨census', .step hlt hseen hcounts, hends', fun σ _ contract => ?_⟩
        have hslot := slotAt_reads h hlt σ contract
        rw [hseen] at hslot
        change contract.Answers (region.extendCensus census) img _
        rw [extendCensus, if_pos hlt]
        refine hslot.attempt_bind ?_ fun _ => rfl
        dsimp only
        rw [if_neg horphan]
        exact hreads σ contract

/-- All that there is of the storage. -/
theorem Fits.whole (h : region.Fits img) (hwf : img.WellFormed) :
    ({ region with stop := img.size } : Region).Fits img := by
  refine ⟨h.pageSize, h.supported, Nat.le_trans h.start h.bound, Nat.le_refl _, ?_⟩
  obtain ⟨pages, hpages⟩ := Nat.dvd_of_mod_eq_zero hwf.pages
  rw [hpages, Nat.mul_mod, h.supported.aligned, Nat.zero_mul, Nat.zero_mod]

variable {σ : Type} [PagedStorage σ] (contract : StorageContract σ)

theorem count_runs (h : region.Fits img) :
    contract.Runs region.count img fun _ after => after = img := by
  have hstart : Census.start.offset ≤ region.stop := h.start
  have hcount : Repeats (fun σ _ => (region.count : SlotM σ Counters)) img img fun _ => True :=
    (takeCensus_repeats h hstart).bind fun _ _ => .pure trivial
  exact hcount.runs contract (fun _ _ => rfl) fun _ => rfl

/-- What a recount comes to: all slots up to some place behind the region, where a census ends. -/
structure Recounted (region : Region) (img : Image) (census : Census) : Prop where
  counts : Counts { region with stop := census.offset } img .start census
  ends : Ends { region with stop := img.size } img census
  stop : region.stop ≤ census.offset
  reached : Reached census.offset img.size

theorem recount_runs (h : region.Fits img) :
    contract.Runs region.recount img fun result after =>
      after = img ∧ ∀ counters, result = .ok counters → ∃ census, region.Recounted img census ∧
        census.counters = counters := by
  refine contract.runs_of_wellFormed fun hwf => ?_
  have hstart : Reached Census.start.offset region.stop := ⟨Nat.le_refl _, rfl, h.start⟩
  unfold recount
  refine Runs.step ((takeCensus_repeats h hstart.stop).runs contract (fun taken htaken => ?_) fun e => ⟨rfl, nofun⟩)
  refine contract.size_answers.bind_runs ?_ fun _ cause => ⟨rfl, nofun⟩
  obtain ⟨census, hcounts, hends, hreads⟩ := extendCensus_reads (h.whole hwf) taken
  refine (hreads σ contract).bind_runs (Runs.pure ⟨rfl, ?_⟩) fun _ cause => ⟨rfl, nofun⟩
  rintro _ ⟨⟩
  have hle := htaken.2 ▸ hcounts.le
  have htaken' : Reached taken.offset img.size := by
    have hreached := htaken.1.reached hstart
    exact ⟨hreached.start, hreached.aligned, Nat.le_trans hreached.stop h.bound⟩
  refine ⟨census, ⟨?_, hends, hle, hcounts.reached htaken'⟩, rfl⟩
  exact (htaken.1.within hcounts.le).trans (hcounts.within (Nat.le_refl _))

/-! ### Appending -/

/-- Writing a slot at a place where nothing is yet. -/
private theorem place_runs {id : RecordId} {header : SlotHeader} {payload : ByteArray} (hfits : img.pageSize < 2 ^ 32)
    (hsize : header.slotSize ≤ img.pageSize) (hpayload : header.headerSize + payload.size ≤ header.slotSize) :
    contract.Runs (do
      SlotM.onStorage (PagedStorage.grow (id.offset + header.slotSize))
      writeSlot id.offset header payload
      return (id, id.offset + header.slotSize)) img fun result after => img.ChangedWithin after id.offset reach ∧
        ((∃ cause, result = .error (.io cause)) ∨
          result = .ok (id, id.offset + header.slotSize) ∧ id.offset + header.slotSize ≤ after.size) := by
  have hreach := id.offset_add_le_reach (Nat.le_trans hsize (Nat.le_of_lt hfits))
  have hbytes : (ofList header.encode ++ payload).size ≤ header.slotSize := by
    rw [ByteArray.size_append, size_ofList, SlotHeader.length_encode_header]
    exact hpayload
  refine Runs.step (contract.grow_runs hreach (fun size htarget hgrown => ?_) fun _ cause =>
    ⟨.refl .., .inl ⟨cause, rfl⟩⟩)
  have hchanged : img.ChangedWithin { img with size } id.offset reach := .grow img hgrown
  refine Runs.step (contract.write_runs ?_ (Runs.pure ⟨?_, .inr ⟨rfl, htarget⟩⟩) fun _ cause =>
    ⟨hchanged, .inl ⟨cause, rfl⟩⟩)
  · exact Nat.le_trans (Nat.add_le_add_left hbytes _) htarget
  · exact hchanged.trans (.write _ (Nat.le_refl _) (Nat.le_trans (Nat.add_le_add_left hbytes _) hreach))

/-- What an append leaves behind: nothing has changed in the region, and nothing at all if there is no identifier. -/
structure Appended (region : Region) (img : Image) (header : SlotHeader) (result : Except StoreError (RecordId × Nat))
    (after : Image) : Prop where
  changed : img.ChangedWithin after region.stop reach
  failed : ∀ e, result = .error e → (∃ cause, e = .io cause) ∨ after = img
  placed : ∀ id stop, result = .ok (id, stop) →
    region.stop ≤ id.offset ∧ stop = id.offset + header.slotSize ∧ stop ≤ after.size

theorem Appended.fits {header : SlotHeader} {after : Image} {id : RecordId} {stop : Nat}
    (happended : region.Appended img header (.ok (id, stop)) after) (h : region.Fits img) :
    ({ region with stop } : Region).Fits after := by
  obtain ⟨hlow, hstop, hhigh⟩ := happended.placed id stop rfl
  have hoffset := id.offset_mod
  have hsize := header.slotSize_mod
  have hstart := h.start
  have hfits := h.of_changedWithin happended.changed
  refine ⟨hfits.pageSize, hfits.supported, ?_, hhigh, ?_⟩
  · change FileHeader.size ≤ stop
    omega
  · change stop % alignment = 0
    rw [hstop, Nat.add_mod, hoffset, hsize]
    rfl

/-- Writing the slot is the end of an append that has changed nothing but bytes behind the region before. -/
private theorem place_appends {img' : Image} {id : RecordId} {header : SlotHeader} {payload : ByteArray}
    (hlow : region.stop ≤ id.offset) (hchanged : img.ChangedWithin img' region.stop reach)
    (hfits : img.pageSize < 2 ^ 32) (hsize : header.slotSize ≤ img.pageSize)
    (hpayload : header.headerSize + payload.size ≤ header.slotSize) :
    contract.Runs (do
      SlotM.onStorage (PagedStorage.grow (id.offset + header.slotSize))
      writeSlot id.offset header payload
      return (id, id.offset + header.slotSize)) img' (region.Appended img header) := by
  rw [← hchanged.pageSize] at hfits hsize
  refine (place_runs contract hfits hsize hpayload).mono ?_
  rintro result after ⟨hchanged', hresult⟩
  refine ⟨hchanged.trans (hchanged'.mono hlow (Nat.le_refl _)), ?_, ?_⟩
  · rintro e rfl
    rcases hresult with ⟨cause, hcause⟩ | ⟨hok, -⟩
    · cases hcause
      exact .inl ⟨cause, rfl⟩
    · cases hok
  · rintro other stop rfl
    rcases hresult with ⟨cause, hcause⟩ | ⟨hok, hend⟩
    · cases hcause
    · cases hok
      exact ⟨hlow, rfl, hend⟩

theorem append_runs_raw (h : region.Fits img) {header : SlotHeader} {payload : ByteArray}
    (hsize : header.slotSize ≤ img.pageSize) (hpayload : header.headerSize + payload.size ≤ header.slotSize) :
    contract.Runs (region.append header payload) img (region.Appended img header) := by
  refine contract.runs_of_wellFormed fun hwf => ?_
  have hpos := h.supported.pos
  have hwrite : ∀ {img' : Image} {id : RecordId}, region.stop ≤ id.offset → img.ChangedWithin img' region.stop reach →
      contract.Runs (do
        SlotM.onStorage (PagedStorage.grow (id.offset + header.slotSize))
        writeSlot id.offset header payload
        return (id, id.offset + header.slotSize)) img' (region.Appended img header) :=
    fun hlow hchanged => place_appends contract hlow hchanged h.supported.fits hsize hpayload
  unfold append
  dsimp only
  cases hid : RecordId.ofOffset? (region.placement header.slotSize).offset with
  | none => exact Runs.throw ⟨.refl .., fun e _ => .inr rfl, nofun⟩
  | some id =>
    have hoffset := RecordId.offset_of_ofOffset? hid
    rw [← hoffset]
    obtain ⟨pageSize, stop⟩ := region
    obtain rfl : pageSize = img.pageSize := h.pageSize
    have hbound : stop ≤ img.size := h.bound
    have haligned : stop % alignment = 0 := h.aligned
    by_cases hgap : endOfPage img.pageSize stop < stop + header.slotSize
    · -- padding up to the end of the page
      obtain ⟨hstop, hend, hroom⟩ := gap_facts hwf.pages hbound haligned h.supported.aligned hpos hsize hgap
      rw [placement_next hgap] at hoffset ⊢
      dsimp only at hoffset ⊢
      have hhigh := id.offset_lt
      have hpadding : ∀ capacity, (ofList (SlotHeader.padding capacity).encode).size = 8 := fun capacity => by
        rw [size_ofList, SlotHeader.length_encode_header]
        rfl
      refine Runs.step (contract.write_runs ?_ ?_ fun _ cause => ⟨.refl .., fun e he => ?_, nofun⟩)
      · rw [hpadding]
        omega
      · have hlow : stop ≤ id.offset := by omega
        refine hwrite hlow (.write img (Nat.le_refl _) ?_)
        rw [hpadding]
        unfold reach
        omega
      · cases he
        exact .inl ⟨cause, rfl⟩
    · rw [placement_here (Nat.not_lt.1 hgap)] at hoffset ⊢
      exact hwrite (Nat.le_of_eq hoffset.symm) (.refl ..)

end Region

end RecordStore
