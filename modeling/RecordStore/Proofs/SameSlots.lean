import RecordStore.Proofs.FlatFile

/-!
# Files with the same slots

Files behind caches that have the same bytes behind the file header, whatever their headers and the sizes of their
caches are.  Work on slots does not read the header: it answers alike on such files and leaves such files behind
(`Blind`, with one rule for each way in which such work is put together).
-/

namespace RecordStore

open Bytes

variable {α β : Type}

/-- The two images have the same size and the same bytes behind the file header. -/
structure Image.SameSlots (img img' : Image) : Prop where
  pageSize : img'.pageSize = img.pageSize
  size : img'.size = img.size
  byte : ∀ i, FileHeader.size ≤ i → img'.byte i = img.byte i

namespace Image.SameSlots

variable {img img' img₁ img₂ img₃ : Image}

theorem refl (img : Image) : img.SameSlots img := ⟨rfl, rfl, fun _ _ => rfl⟩

theorem symm (h : img.SameSlots img') : img'.SameSlots img :=
  ⟨h.pageSize.symm, h.size.symm, fun i hi => (h.byte i hi).symm⟩

theorem trans (h : img₁.SameSlots img₂) (h' : img₂.SameSlots img₃) : img₁.SameSlots img₃ :=
  ⟨h'.pageSize.trans h.pageSize, h'.size.trans h.size, fun i hi => (h'.byte i hi).trans (h.byte i hi)⟩

theorem read_eq (h : img.SameSlots img') {offset : Nat} (hlow : FileHeader.size ≤ offset) (length : Nat) :
    img'.read offset length = img.read offset length :=
  AgreeOn.read_eq fun i hi _ => h.byte i (Nat.le_trans hlow hi)

theorem write (h : img.SameSlots img') (offset : Nat) (data : ByteArray) :
    (img.write offset data).SameSlots (img'.write offset data) := by
  refine ⟨h.pageSize, h.size, fun i hi => ?_⟩
  rw [byte_write, byte_write, h.byte i hi]

theorem extend (h : img.SameSlots img') (target : Nat) : (img.extend target).SameSlots (img'.extend target) := by
  refine ⟨h.pageSize, ?_, h.byte⟩
  unfold Image.extend
  rw [h.pageSize, h.size]

/-- Writing a file header leaves the slots alone. -/
theorem of_write_header (img : Image) (header : FileHeader) :
    img.SameSlots (img.write 0 (ofList header.encode)) := by
  refine ⟨rfl, rfl, fun i hi => ?_⟩
  rw [byte_write_of_le _ _ (by simpa using hi)]

end Image.SameSlots

namespace CachedFile

/-- Two files in use with the same slots. -/
structure Alike (file file' : CachedFile) : Prop where
  left : file.Usable
  right : file'.Usable
  slots : file.image.SameSlots file'.image

variable {file file' after after' : CachedFile}

theorem Alike.size_eq (h : file.Alike file') : file'.size = file.size := h.slots.size

/-- The files that two files become. -/
theorem alike_of_becomes {img img' : Image} (h : file.Becomes after img) (h' : file'.Becomes after' img')
    (hslots : img.SameSlots img') : after.Alike after' := by
  refine ⟨h.usable, h'.usable, ?_⟩
  rw [h.image, h'.image]
  exact hslots

end CachedFile

/-- Work that answers alike on files with the same slots, with an answer as `post` says if it has one. -/
def Blind (act : SlotM CachedFile α) (post : α → Prop) : Prop :=
  ∀ file file', file.Alike file' →
    (act file').1 = (act file).1 ∧ (act file).2.Alike (act file').2 ∧ ∀ a, (act file).1 = .ok a → post a

namespace Blind

variable {act : SlotM CachedFile α} {post : α → Prop}

theorem pure {a : α} (h : post a) : Blind (Pure.pure a) post := by
  refine fun file file' halike => ⟨rfl, halike, ?_⟩
  rintro _ ⟨⟩
  exact h

theorem throw (e : StoreError) : Blind (MonadExcept.throw e) post := by
  refine fun file file' halike => ⟨rfl, halike, ?_⟩
  rintro _ ⟨⟩

theorem ofExcept {result : Except StoreError α} (h : ∀ a, result = .ok a → post a) :
    Blind (liftExcept result) post := by
  cases result with
  | error e => exact throw e
  | ok a => exact pure (h a rfl)

theorem bind {next : α → SlotM CachedFile β} {post' : β → Prop} (h : Blind act post)
    (hnext : ∀ a, post a → Blind (next a) post') : Blind (act >>= next) post' := by
  intro file file' halike
  obtain ⟨hresult, hafter, hpost⟩ := h file file' halike
  rw [bind_apply, bind_apply]
  rcases hact : act file with ⟨e | a, after⟩
  · rcases hact' : act file' with ⟨result', after'⟩
    rw [hact, hact'] at hresult hafter
    obtain rfl : result' = .error e := hresult
    exact ⟨rfl, hafter, nofun⟩
  · rcases hact' : act file' with ⟨result', after'⟩
    rw [hact] at hpost
    rw [hact, hact'] at hresult hafter
    obtain rfl : result' = .ok a := hresult
    exact hnext a (hpost a rfl) after after' hafter

theorem attempt (h : Blind act post) : Blind (SlotM.attempt act) fun result => ∀ a, result = .ok a → post a := by
  intro file file' halike
  obtain ⟨hresult, hafter, hpost⟩ := h file file' halike
  refine ⟨congrArg Except.ok hresult, hafter, ?_⟩
  rintro _ ⟨⟩
  exact hpost

theorem ite {act' : SlotM CachedFile α} {c : Prop} [Decidable c] (h : c → Blind act post)
    (h' : ¬c → Blind act' post) : Blind (if c then act else act') post := by
  by_cases hc : c
  · rw [if_pos hc]
    exact h hc
  · rw [if_neg hc]
    exact h' hc

/-- A call that has the same answer on both files. -/
private theorem call {act : StorageM CachedFile α}
    (h : ∀ file file', CachedFile.Alike file file' → ∃ result after after', act file = (result, after) ∧
      act file' = (result, after') ∧ after.Alike after') : Blind (SlotM.onStorage act) fun _ => True := by
  intro file file' halike
  obtain ⟨result, after, after', hact, hact', hafter⟩ := h file file' halike
  rw [SlotM.onStorage_apply, SlotM.onStorage_apply, hact, hact']
  exact ⟨rfl, hafter, fun _ _ => trivial⟩

theorem read {offset : Nat} (hlow : FileHeader.size ≤ offset) (length : Nat) :
    Blind (SlotM.onStorage (PagedStorage.read offset length)) fun _ => True := by
  refine call fun file file' h => ?_
  by_cases hbound : offset + length ≤ file.size
  · obtain ⟨after, hread, hbecomes⟩ := CachedFile.read_becomes h.left hbound
    obtain ⟨after', hread', hbecomes'⟩ := CachedFile.read_becomes h.right (h.size_eq ▸ hbound)
    rw [h.slots.read_eq hlow] at hread'
    exact ⟨_, after, after', hread, hread', CachedFile.alike_of_becomes hbecomes hbecomes' h.slots⟩
  · have hread := CachedFile.read_of_lt h.left.opened (Nat.not_le.1 hbound)
    have hread' := CachedFile.read_of_lt h.right.opened (h.size_eq ▸ Nat.not_le.1 hbound)
    rw [h.size_eq] at hread'
    exact ⟨_, file, file', hread, hread', h⟩

theorem write (offset : Nat) (data : ByteArray) :
    Blind (SlotM.onStorage (PagedStorage.write offset data)) fun _ => True := by
  refine call fun file file' h => ?_
  by_cases hbound : offset + data.size ≤ file.size
  · obtain ⟨after, hwrite, hbecomes⟩ := CachedFile.write_becomes h.left hbound
    obtain ⟨after', hwrite', hbecomes'⟩ := CachedFile.write_becomes h.right (h.size_eq ▸ hbound)
    exact ⟨_, after, after', hwrite, hwrite',
      CachedFile.alike_of_becomes hbecomes hbecomes' (h.slots.write offset data)⟩
  · have hwrite := CachedFile.write_of_lt h.left.opened (Nat.not_le.1 hbound)
    have hwrite' := CachedFile.write_of_lt h.right.opened (h.size_eq ▸ Nat.not_le.1 hbound)
    rw [h.size_eq] at hwrite'
    exact ⟨_, file, file', hwrite, hwrite', h⟩

theorem size : Blind (SlotM.onStorage PagedStorage.size) fun _ => True := by
  refine call fun file file' h => ?_
  have hsize' := CachedFile.size_apply h.right.opened
  rw [h.size_eq] at hsize'
  exact ⟨_, file, file', CachedFile.size_apply h.left.opened, hsize', h⟩

theorem grow {target : Nat} (h : target ≤ reach) :
    Blind (SlotM.onStorage (PagedStorage.grow target)) fun _ => True := by
  refine call fun file file' halike => ?_
  obtain ⟨after, hgrow, hbecomes⟩ := CachedFile.grow_becomes halike.left h
  obtain ⟨after', hgrow', hbecomes'⟩ := CachedFile.grow_becomes halike.right h
  exact ⟨_, after, after', hgrow, hgrow',
    CachedFile.alike_of_becomes hbecomes hbecomes' (halike.slots.extend target)⟩

theorem flush : Blind (SlotM.onStorage PagedStorage.flush) fun _ => True := by
  refine call fun file file' h => ?_
  obtain ⟨after, hflush, hbecomes, -⟩ := CachedFile.flush_becomes h.left
  obtain ⟨after', hflush', hbecomes', -⟩ := CachedFile.flush_becomes h.right
  exact ⟨_, after, after', hflush, hflush', CachedFile.alike_of_becomes hbecomes hbecomes' h.slots⟩

end Blind

/-! ### Slots -/

/-- The slot that was found lies behind the file header and fits a page. -/
structure Resolution.Behind (found : Resolution) (pageSize : Nat) : Prop where
  low : FileHeader.size ≤ found.id.offset
  fits : found.header.slotSize ≤ pageSize

namespace Region

variable (region : Region)

theorem slotAt_blind {offset : Nat} (hlow : FileHeader.size ≤ offset) :
    Blind (region.slotAt offset) fun header => header.slotSize ≤ region.pageSize := by
  unfold slotAt
  refine .bind (.read hlow _) fun raw _ => ?_
  cases SlotHeader.decode offset raw.data.toList with
  | error fault => exact .throw _
  | ok header =>
    refine .ite (fun _ => .throw _) fun hfits => .pure ?_
    have hpage : region.pageEnd offset ≤ offset + region.pageSize := by
      have hle := Nat.div_mul_le_self offset region.pageSize
      unfold pageEnd
      rw [Nat.add_mul, Nat.one_mul]
      omega
    omega

theorem isSlot_blind (id : RecordId) : Blind (region.isSlot id) fun found => found = true → FileHeader.size ≤ id.offset
    := by
  unfold isSlot
  refine .ite (fun hcontains => ?_) fun _ => .pure nofun
  have hlow : FileHeader.size ≤ id.offset := by
    simp only [contains, Bool.and_eq_true, decide_eq_true_eq] at hcontains
    exact hcontains.1
  unfold isSlotStart
  refine .ite (fun _ => .pure fun _ => hlow) fun _ => .bind (.read (Nat.le_max_right _ _) _) fun page _ => ?_
  exact .ofExcept fun _ _ _ => hlow

theorem redirectCapacity_blind {id : RecordId} (hlow : FileHeader.size ≤ id.offset) :
    Blind (region.redirectCapacity id) fun _ => True := by
  unfold redirectCapacity
  refine .bind (region.slotAt_blind hlow) fun header _ => ?_
  cases header with
  | moved capacity target => exact .pure trivial
  | live capacity length origin => exact .throw _
  | deleted capacity length relocated => exact .throw _
  | padding capacity => exact .throw _

private theorem follow_blind (maxHops : Nat) (id current : RecordId) (header : SlotHeader) (passed : List Redirect)
    (hbehind : ({ id := current, header, passed } : Resolution).Behind region.pageSize) :
    Blind (region.follow maxHops id current header passed) (·.Behind region.pageSize) := by
  induction hn : maxHops - passed.length using Nat.strongRecOn generalizing current header passed with
  | ind n ih =>
    unfold follow
    cases header with
    | live capacity length origin => exact .pure hbehind
    | deleted capacity length relocated => exact .pure hbehind
    | padding capacity => cases passed.getLast? <;> exact .throw _
    | moved capacity target =>
      refine .ite (fun _ => .throw _) fun _ => .ite (fun hlt => ?_) fun _ => .throw _
      refine .bind (region.isSlot_blind target) fun found hfound => .ite (fun hslot => ?_) fun _ => .throw _
      refine .bind (region.slotAt_blind (hfound hslot)) fun next hnext => ?_
      refine ih _ ?_ target next _ ⟨hfound hslot, hnext⟩ rfl
      rw [List.length_append, List.length_singleton]
      omega

theorem resolve_blind (maxHops : Nat) (id : RecordId) :
    Blind (region.resolve maxHops id) (·.Behind region.pageSize) := by
  unfold resolve
  refine .bind (region.isSlot_blind id) fun found hfound => .ite (fun hslot => ?_) fun _ => .throw _
  refine .bind (region.slotAt_blind (hfound hslot)) fun header hheader => ?_
  exact region.follow_blind maxHops id id header [] ⟨hfound hslot, hheader⟩

private theorem takeCensus_blind {census : Census} (hlow : FileHeader.size ≤ census.offset) :
    Blind (region.takeCensus census) fun census' => FileHeader.size ≤ census'.offset := by
  induction hn : region.stop - census.offset using Nat.strongRecOn generalizing census with
  | ind n ih =>
    unfold takeCensus
    refine .ite (fun hlt => ?_) fun _ => .pure hlow
    refine .bind (region.slotAt_blind hlow) fun header _ => ?_
    have hoffset : (census.count header).offset = census.offset + header.slotSize := rfl
    have hpos := header.slotSize_pos
    exact ih _ (by omega) (by omega) rfl

private theorem extendCensus_blind {census : Census} (hlow : FileHeader.size ≤ census.offset) :
    Blind (region.extendCensus census) fun _ => True := by
  induction hn : region.stop - census.offset using Nat.strongRecOn generalizing census with
  | ind n ih =>
    unfold extendCensus
    refine .ite (fun hlt => ?_) fun _ => .pure trivial
    refine .bind (.attempt (region.slotAt_blind hlow)) fun found _ => ?_
    cases found with
    | error e =>
      cases e with
      | corruption offset damage => exact .pure trivial
      | _ => exact .throw _
    | ok header =>
      have hoffset : (census.count header).offset = census.offset + header.slotSize := rfl
      have hpos := header.slotSize_pos
      exact .ite (fun _ => .pure trivial) fun _ => ih _ (by omega) (by omega) rfl

theorem count_blind : Blind region.count fun _ => True := by
  unfold count
  exact .bind (region.takeCensus_blind (Nat.le_refl _)) fun _ _ => .pure trivial

theorem recount_blind : Blind region.recount fun _ => True := by
  unfold recount
  refine .bind (region.takeCensus_blind (Nat.le_refl _)) fun census hlow => .bind .size fun size _ => ?_
  exact .bind (extendCensus_blind _ hlow) fun _ _ => .pure trivial

theorem append_blind {header : SlotHeader} (hsize : header.slotSize ≤ 2 ^ 32) (payload : ByteArray) :
    Blind (region.append header payload) fun _ => True := by
  unfold append
  dsimp only
  cases hid : RecordId.ofOffset? (region.placement header.slotSize).offset with
  | none => exact .throw _
  | some id =>
    have hreach : (region.placement header.slotSize).offset + header.slotSize ≤ reach :=
      RecordId.offset_of_ofOffset? hid ▸ id.offset_add_le_reach hsize
    have hwrite : Blind (do
        SlotM.onStorage (PagedStorage.grow ((region.placement header.slotSize).offset + header.slotSize))
        writeSlot (region.placement header.slotSize).offset header payload
        return (id, (region.placement header.slotSize).offset + header.slotSize)) fun _ => True :=
      .bind (.grow hreach) fun _ _ => .bind (.write _ _) fun _ _ => .pure trivial
    cases (region.placement header.slotSize).padding with
    | none => exact hwrite
    | some capacity => exact .bind (.write _ _) fun _ _ => hwrite

end Region

end RecordStore
