import Mathlib
import RecordStore.Proofs.FileSessions

/-!
# Cached files are arrays of bytes

A file behind a cache answers as an array of bytes that grows in whole pages (`FlatFile`), for every sequence of calls
and openings, whatever the sizes of the caches are (`cached_file_is_array`).  The array is what each call keeps
(`FlatFile.Mirrors.step`): it is the image of the file while the file is open, and what stands on disk once it is
closed.
-/

namespace RecordStore

open Bytes

/-- What a user of a file may do: call its storage, or close it and open what is on disk then. -/
inductive FileCall
  | read (offset length : Nat)
  | write (offset : Nat) (data : ByteArray)
  | size
  | grow (target : Nat)
  | flush
  | close
  | reopen

/-- The calls after which the disk is up to date. -/
def FileCall.Syncs : FileCall → Prop
  | .flush | .close | .reopen => True
  | .read .. | .write .. | .size | .grow _ => False

inductive FileReply
  | bytes (data : ByteArray)
  | number (n : Nat)
  | done
deriving DecidableEq

/-- A reply, or an error. -/
abbrev FileResult := Except StorageError FileReply

/-! ### The array -/

/-- An array of bytes that can be closed. -/
structure FlatFile where
  image : Image
  closed : Bool

namespace FlatFile

/-- The bytes of a file, filled up with zeros to whole pages. -/
def opened (content : SparseFile) (pageSize : Nat) : FlatFile :=
  { image := Image.extend { pageSize, size := 0, byte := content.byteAt } content.length, closed := false }

/-- The bytes in range are those last written there; the file becomes no larger but by `grow`, in whole pages. -/
def answer (call : FileCall) (file : FlatFile) : FileResult × FlatFile :=
  match call with
  | .reopen => (.ok .done, { file with closed := false })
  | .close => (.ok .done, { file with closed := true })
  | .read offset length =>
    if file.closed then (.error .closed, file)
    else if file.image.size < offset + length then (.error (.outOfBounds offset length file.image.size), file)
    else (.ok (.bytes (file.image.read offset length)), file)
  | .write offset data =>
    if file.closed then (.error .closed, file)
    else if file.image.size < offset + data.size then (.error (.outOfBounds offset data.size file.image.size), file)
    else (.ok .done, { file with image := file.image.write offset data })
  | .size => if file.closed then (.error .closed, file) else (.ok (.number file.image.size), file)
  | .grow target =>
    if file.closed then (.error .closed, file) else (.ok .done, { file with image := file.image.extend target })
  | .flush => if file.closed then (.error .closed, file) else (.ok .done, file)

variable {file : FlatFile}

@[simp] theorem pageSize_answer (call : FileCall) (file : FlatFile) :
    (file.answer call).2.image.pageSize = file.image.pageSize := by
  cases call <;> simp only [answer] <;> split_ifs <;> rfl

theorem size_le_answer (call : FileCall) (file : FlatFile) : file.image.size ≤ (file.answer call).2.image.size := by
  cases call with
  | close | reopen => exact Nat.le_refl _
  | grow target =>
    simp only [answer]
    split_ifs
    · exact Nat.le_refl _
    · exact Nat.le_max_left ..
  | _ =>
    simp only [answer]
    split_ifs <;> exact Nat.le_refl _

theorem size_le_runAll (calls : List FileCall) (file : FlatFile) :
    file.image.size ≤ (runAll answer calls file).2.image.size := by
  induction calls generalizing file with
  | nil => exact Nat.le_refl _
  | cons call rest ih => exact Nat.le_trans (file.size_le_answer call) (ih _)

end FlatFile

/-! ### The file -/

/-- What a file that is opened holds at first: nothing if there is no file yet. -/
def Entry.Provides (entry : Entry) (content : SparseFile) : Prop :=
  entry = .regular content ∨ entry = .missing ∧ content = .empty

/-- Whole pages are opened as they are. -/
theorem Entry.Provides.openOrCreate {entry : Entry} {content : SparseFile} (h : entry.Provides content) (path : String)
    {pageSize : Nat} (hpageSize : checkPageSize pageSize = .ok ()) (hpages : content.length % pageSize = 0)
    (frames : Nat) :
    CachedFile.openOrCreate path entry pageSize frames = .ok (.behind { content, pageSize } frames) := by
  rcases h with rfl | ⟨rfl, rfl⟩
  · exact CachedFile.openOrCreate_regular path hpageSize hpages frames
  · exact CachedFile.openOrCreate_missing path hpageSize frames

namespace CachedFile

variable {file : CachedFile}

def replying {α : Type} (reply : α → FileReply) (act : M α) (file : CachedFile) : FileResult × CachedFile :=
  ((act file).1.map reply, (act file).2)

/-- A call on the file under `path`, which is opened with the given number of frames if it is opened. -/
def answer (path : String) (call : FileCall × Nat) (file : CachedFile) : FileResult × CachedFile :=
  match call.1 with
  | .read offset length => replying .bytes (PagedStorage.read offset length) file
  | .write offset data => replying (fun _ => .done) (PagedStorage.write offset data) file
  | .size => replying .number PagedStorage.size file
  | .grow target => replying (fun _ => .done) (PagedStorage.grow target) file
  | .flush => replying (fun _ => .done) PagedStorage.flush file
  | .close => replying (fun _ => .done) PagedStorage.close file
  | .reopen =>
    match (PagedStorage.close : M Unit) file with
    | (.error e, after) => (.error e, after)
    | (.ok (), after) =>
      match openOrCreate path (.regular after.onDisk) file.pageSize call.2 with
      | .error e => (.error e, after)
      | .ok opened => (.ok .done, opened)

/-- The file on disk is all that the file holds. -/
structure Saved (file : CachedFile) : Prop where
  length : file.onDisk.length = file.size
  byteAt : ∀ i, file.onDisk.byteAt i = file.image.byte i

private theorem checkBounds_of_lt {offset length : Nat} (h : file.size < offset + length) {α : Type}
    (next : Unit → M α) :
    (checkBounds offset length >>= next) file = (.error (.outOfBounds offset length file.size), file) := by
  rw [bind_apply]
  have hbounds : checkBounds offset length file = (.error (.outOfBounds offset length file.size), file) := by
    unfold checkBounds
    rw [get_bind_apply, if_pos h]
    rfl
  rw [hbounds]

theorem read_of_lt (hopened : file.closed = false) {offset length : Nat} (h : file.size < offset + length) :
    (PagedStorage.read offset length : M ByteArray) file = (.error (.outOfBounds offset length file.size), file) := by
  change (do ensureOpen; checkBounds offset length; _ : M ByteArray) file = _
  rw [ensureOpen_bind hopened, checkBounds_of_lt h]

theorem write_of_lt (hopened : file.closed = false) {offset : Nat} {data : ByteArray}
    (h : file.size < offset + data.size) :
    (PagedStorage.write offset data : M Unit) file = (.error (.outOfBounds offset data.size file.size), file) := by
  change (do ensureOpen; checkBounds offset data.size; _ : M Unit) file = _
  rw [ensureOpen_bind hopened, checkBounds_of_lt h]

theorem ensureOpen_of_closed (hclosed : file.closed = true) {α : Type} (next : Unit → M α) :
    (ensureOpen >>= next) file = (.error .closed, file) := by
  rw [bind_apply]
  have hopen : ensureOpen file = (.error .closed, file) := by
    unfold ensureOpen
    rw [get_bind_apply, hclosed]
    rfl
  rw [hopen]

theorem close_saved (hready : file.Ready) :
    ∃ file', (PagedStorage.close : M Unit) file = (.ok (), file') ∧ file'.closed = true ∧
      file'.size % file'.pageSize = 0 ∧ file'.Saved ∧ file'.image = file.image := by
  obtain ⟨file', hclose, himage, hclosed, -, hlength, hdisk⟩ := close_apply hready
  have hsize : file'.size = file.size := congrArg Image.size himage
  have hpageSize : file'.pageSize = file.pageSize := congrArg Image.pageSize himage
  refine ⟨file', hclose, hclosed, ?_, ⟨hlength.trans hsize.symm, fun i => ?_⟩, himage⟩
  · rw [hsize, hpageSize]
    exact hready.size_mod
  · rw [himage]
    exact hdisk i

theorem close_of_closed (hclosed : file.closed = true) : (PagedStorage.close : M Unit) file = (.ok (), file) := by
  change close file = _
  unfold close
  rw [get_bind_apply, hclosed]
  rfl

end CachedFile

namespace FlatFile

open CachedFile

variable {flat : FlatFile} {file : CachedFile}

/-- The file holds the bytes of the array, in its cache while it is open and on disk once it is closed. -/
inductive Mirrors : FlatFile → CachedFile → Prop
  | opened {file : CachedFile} (ready : file.Ready) : Mirrors { image := file.image, closed := false } file
  | closed {file : CachedFile} (closed : file.closed = true) (pages : file.size % file.pageSize = 0)
      (saved : file.Saved) : Mirrors { image := file.image, closed := true } file

theorem Mirrors.image_eq (h : flat.Mirrors file) : file.image = flat.image := by
  cases h <;> rfl

/-- A file that has become `img` mirrors it. -/
private theorem mirrors_of_turnsInto {file' : CachedFile} {img : Image} (h : file.TurnsInto file' img) :
    Mirrors { image := img, closed := false } file' := by
  rw [← h.image]
  exact .opened h.ready

private theorem behind_mirrors {content : SparseFile} {pageSize : Nat} (hpos : 0 < pageSize)
    (hpages : content.length % pageSize = 0) (hfits : content.length < 2 ^ 32 * pageSize) {frames : Nat}
    (hframes : 1 ≤ frames) :
    Mirrors { image := { pageSize, size := content.length, byte := content.byteAt }, closed := false }
      (behind { content, pageSize } frames) ∧ (behind { content, pageSize } frames).Saved := by
  obtain ⟨hready, himage⟩ := ready_behind { content, pageSize } hpos hpages hfits hframes
  constructor
  · rw [← himage]
    exact .opened hready
  · refine ⟨hready.size.symm, fun i => ?_⟩
    rw [himage]
    rfl

/-- Opening a file fills it up to whole pages. -/
private theorem opened_mirrors (path : String) {entry : Entry} {content : SparseFile} (hentry : entry.Provides content)
    {pageSize : Nat} (hpageSize : checkPageSize pageSize = .ok ())
    (hfits : (opened content pageSize).image.size < 2 ^ 32 * pageSize) {frames : Nat} (hframes : 1 ≤ frames) :
    ∃ file, openOrCreate path entry pageSize frames = .ok file ∧ (opened content pageSize).Mirrors file ∧
      file.Saved := by
  have hpos : 0 < pageSize := (supported_of_checkPageSize hpageSize).pos
  have hsize : (opened content pageSize).image.size =
      if content.length % pageSize = 0 then content.length else (content.length / pageSize + 1) * pageSize :=
    (Nat.zero_max _).trans (Image.roundUp_eq hpos content.length)
  obtain ⟨length, hlength⟩ : ∃ length, length = (opened content pageSize).image.size := ⟨_, rfl⟩
  have hopened : opened content pageSize =
      { image := { pageSize, size := length, byte := content.byteAt }, closed := false } := by
    rw [hlength]
    rfl
  rw [← hlength] at hsize hfits
  rw [hopened]
  -- a file that ends inside a page is filled up to the end of that page
  by_cases htorn : content.length % pageSize = 0
  · rw [if_pos htorn] at hsize
    subst hsize
    obtain ⟨hmirrors, hsaved⟩ := behind_mirrors hpos htorn hfits hframes
    exact ⟨_, hentry.openOrCreate path hpageSize htorn frames, hmirrors, hsaved⟩
  · rw [if_neg htorn] at hsize
    have hwhole : (content.setLength length).length = length := SparseFile.length_setLength ..
    have hbytes : (content.setLength length).byteAt = content.byteAt := by
      rw [hsize]
      exact funext (content.byteAt_setLength_page hpos)
    obtain ⟨hmirrors, hsaved⟩ := behind_mirrors hpos
      (show (content.setLength length).length % pageSize = 0 by rw [hwhole, hsize]; exact Nat.mul_mod_left ..)
      (by rw [hwhole]; exact hfits) hframes
    rw [hwhole, hbytes] at hmirrors
    refine ⟨_, ?_, hmirrors, hsaved⟩
    rcases hentry with rfl | ⟨rfl, rfl⟩
    · have hmax : ¬maxFileLength < length := by
        have hlarge : pageSize ≤ 2 ^ 24 := (le_of_checkPageSize hpageSize).2
        have hlimit : maxFileLength = 2 ^ 63 - 1 := rfl
        omega
      unfold openOrCreate PageFile.openOrCreate
      rw [hpageSize]
      simp only [bind, Except.bind]
      rw [if_neg htorn, ← hsize, if_neg hmax]
      rfl
    · exact absurd (Nat.zero_mod _) htorn

/-- What is on disk is opened again. -/
private theorem reopened_mirrors (path : String) (hpageSize : checkPageSize file.pageSize = .ok ())
    (hpages : file.size % file.pageSize = 0) (hsaved : file.Saved) (hfits : file.size < 2 ^ 32 * file.pageSize)
    {frames : Nat} (hframes : 1 ≤ frames) :
    ∃ file', openOrCreate path (.regular file.onDisk) file.pageSize frames = .ok file' ∧
      Mirrors { image := file.image, closed := false } file' ∧ file'.Saved := by
  rw [← hsaved.length] at hpages hfits
  obtain ⟨hmirrors, hsaved'⟩ := behind_mirrors (supported_of_checkPageSize hpageSize).pos hpages hfits hframes
  have himage : file.image = { pageSize := file.pageSize, size := file.onDisk.length, byte := file.onDisk.byteAt } := by
    rw [hsaved.length, show file.onDisk.byteAt = file.cache.byteAt from funext hsaved.byteAt]
    rfl
  rw [himage]
  exact ⟨_, openOrCreate_regular path hpageSize hpages frames, hmirrors, hsaved'⟩

/-! ### Calls -/

/-- The file replies as the array does, still holds the same bytes, and holds them on disk after a call that says so. -/
private def Agree (path : String) (flat : FlatFile) (file : CachedFile) (call : FileCall × Nat) : Prop :=
  (file.answer path call).1 = (flat.answer call.1).1 ∧ (flat.answer call.1).2.Mirrors (file.answer path call).2 ∧
    (call.1.Syncs → (file.answer path call).2.Saved)

private theorem agree_of_replying {path : String} {call : FileCall × Nat} {α : Type} {reply : α → FileReply} {act : M α}
    {result : Except StorageError α} {flat' : FlatFile} {file' : CachedFile}
    (hanswer : file.answer path call = replying reply act file) (hact : act file = (result, file'))
    (hflat : flat.answer call.1 = (result.map reply, flat')) (hmirrors : flat'.Mirrors file')
    (hsaved : call.1.Syncs → file'.Saved) : Agree path flat file call := by
  unfold Agree
  rw [hanswer, hflat]
  unfold replying
  rw [hact]
  exact ⟨rfl, hmirrors, hsaved⟩

/-- A closed file refuses what needs it to be open. -/
private theorem agree_closed (path : String) (hclosed : file.closed = true) (hpages : file.size % file.pageSize = 0)
    (hsaved : file.Saved) (hpageSize : checkPageSize file.pageSize = .ok ()) {frames : Nat} (hframes : 1 ≤ frames)
    (hfits : file.size < 2 ^ 32 * file.pageSize) (call : FileCall) :
    Agree path { image := file.image, closed := true } file (call, frames) := by
  have hsame : Mirrors { image := file.image, closed := true } file := .closed hclosed hpages hsaved
  cases call with
  | read offset length =>
    have hread : (PagedStorage.read offset length : M ByteArray) file = (.error .closed, file) :=
      ensureOpen_of_closed hclosed _
    exact agree_of_replying rfl hread rfl hsame False.elim
  | write offset data =>
    have hwrite : (PagedStorage.write offset data : M Unit) file = (.error .closed, file) :=
      ensureOpen_of_closed hclosed _
    exact agree_of_replying rfl hwrite rfl hsame False.elim
  | size =>
    have hsize : (PagedStorage.size : M Nat) file = (.error .closed, file) := ensureOpen_of_closed hclosed _
    exact agree_of_replying rfl hsize rfl hsame False.elim
  | grow target =>
    have hgrow : (PagedStorage.grow target : M Unit) file = (.error .closed, file) := ensureOpen_of_closed hclosed _
    exact agree_of_replying rfl hgrow rfl hsame False.elim
  | flush =>
    have hflush : (PagedStorage.flush : M Unit) file = (.error .closed, file) := ensureOpen_of_closed hclosed _
    exact agree_of_replying rfl hflush rfl hsame fun _ => hsaved
  | close => exact agree_of_replying rfl (close_of_closed hclosed) rfl hsame fun _ => hsaved
  | reopen =>
    obtain ⟨file', hopen, hmirrors, hsaved'⟩ := reopened_mirrors path hpageSize hpages hsaved hfits hframes
    unfold Agree CachedFile.answer
    dsimp only
    rw [close_of_closed hclosed]
    dsimp only
    rw [hopen]
    exact ⟨rfl, hmirrors, fun _ => hsaved'⟩

private theorem agree_opened (path : String) (hready : file.Ready) (hpageSize : checkPageSize file.pageSize = .ok ())
    {frames : Nat} (hframes : 1 ≤ frames) (call : FileCall)
    (hfits : (FlatFile.answer call { image := file.image, closed := false }).2.image.size < 2 ^ 32 * file.pageSize) :
    Agree path { image := file.image, closed := false } file (call, frames) := by
  have hopened := hready.opened
  have hsame : Mirrors { image := file.image, closed := false } file := .opened hready
  cases call with
  | read offset length =>
    by_cases hbound : file.image.size < offset + length
    · exact agree_of_replying rfl (read_of_lt hopened hbound) (if_pos hbound) hsame False.elim
    · obtain ⟨file', hread, hturns⟩ := read_turnsInto hready (Nat.not_lt.1 hbound)
      exact agree_of_replying rfl hread (if_neg hbound) (mirrors_of_turnsInto hturns) False.elim
  | write offset data =>
    by_cases hbound : file.image.size < offset + data.size
    · exact agree_of_replying rfl (write_of_lt hopened hbound) (if_pos hbound) hsame False.elim
    · obtain ⟨file', hwrite, hturns⟩ := write_turnsInto hready (Nat.not_lt.1 hbound)
      exact agree_of_replying rfl hwrite (if_neg hbound) (mirrors_of_turnsInto hturns) False.elim
  | size => exact agree_of_replying rfl (size_apply hopened) rfl hsame False.elim
  | grow target =>
    -- what the size is rounded up to still fits
    have htarget : target ≤ 2 ^ 32 * file.pageSize :=
      Nat.le_trans (Image.le_size_extend target hready.pos) (Nat.le_of_lt hfits)
    obtain ⟨file', hgrow, hturns⟩ := grow_turnsInto hready htarget
    exact agree_of_replying rfl hgrow rfl (mirrors_of_turnsInto hturns) False.elim
  | flush =>
    obtain ⟨file', hflush, hturns, hdisk⟩ := flush_turnsInto hready
    refine agree_of_replying rfl hflush rfl (mirrors_of_turnsInto hturns) fun _ => ⟨hturns.ready.size.symm, fun i => ?_⟩
    rw [hturns.image]
    exact hdisk i
  | close =>
    obtain ⟨file', hclose, hclosed, hpages, hsaved, himage⟩ := close_saved hready
    refine agree_of_replying rfl hclose rfl ?_ fun _ => hsaved
    dsimp only
    rw [← himage]
    exact .closed hclosed hpages hsaved
  | reopen =>
    obtain ⟨file', hclose, hclosed, hpages, hsaved, himage⟩ := close_saved hready
    have hpageSize' : file'.pageSize = file.pageSize := congrArg Image.pageSize himage
    have hsize' : file'.size = file.size := congrArg Image.size himage
    obtain ⟨file'', hopen, hmirrors, hsaved'⟩ := reopened_mirrors path (by rw [hpageSize']; exact hpageSize) hpages
      hsaved (by rw [hpageSize', hsize']; exact hfits) hframes
    rw [hpageSize'] at hopen
    rw [himage] at hmirrors
    unfold Agree CachedFile.answer FlatFile.answer
    dsimp only
    rw [hclose]
    dsimp only
    rw [hopen]
    exact ⟨rfl, hmirrors, fun _ => hsaved'⟩

private theorem Mirrors.agree (path : String) (h : flat.Mirrors file)
    (hpageSize : checkPageSize flat.image.pageSize = .ok ()) {call : FileCall × Nat} (hframes : 1 ≤ call.2)
    (hfits : (flat.answer call.1).2.image.size < 2 ^ 32 * flat.image.pageSize) : Agree path flat file call := by
  cases h with
  | opened hready => exact agree_opened path hready hpageSize hframes call.1 hfits
  | closed hclosed hpages hsaved =>
    exact agree_closed path hclosed hpages hsaved hpageSize hframes
      (Nat.lt_of_le_of_lt (size_le_answer call.1 { image := file.image, closed := true }) hfits) call.1

/-- Calls one after the other. -/
private theorem Mirrors.run (path : String) (h : flat.Mirrors file)
    (hpageSize : checkPageSize flat.image.pageSize = .ok ()) {calls : List (FileCall × Nat)}
    (hframes : ∀ call ∈ calls, 1 ≤ call.2)
    (hfits : (runAll answer (calls.map Prod.fst) flat).2.image.size < 2 ^ 32 * flat.image.pageSize) :
    (runAll (CachedFile.answer path) calls file).1 = (runAll answer (calls.map Prod.fst) flat).1 ∧
      (runAll answer (calls.map Prod.fst) flat).2.Mirrors (runAll (CachedFile.answer path) calls file).2 ∧
      ∀ before last, calls = before ++ [last] → last.1.Syncs →
        (runAll (CachedFile.answer path) calls file).2.Saved := by
  induction calls generalizing flat file with
  | nil => exact ⟨rfl, h, fun before last hcalls => by simp at hcalls⟩
  | cons call rest ih =>
    rw [List.map_cons, runAll_cons] at hfits ⊢
    rw [runAll_cons]
    obtain ⟨hreply, hmirrors, hsaved⟩ := h.agree path hpageSize (hframes call List.mem_cons_self)
      (Nat.lt_of_le_of_lt (size_le_runAll _ _) hfits)
    rw [← pageSize_answer call.1 flat] at hfits hpageSize
    obtain ⟨hreplies, hmirrors', hsaved'⟩ := ih hmirrors hpageSize
      (fun other hother => hframes other (List.mem_cons_of_mem _ hother)) hfits
    refine ⟨by rw [hreply, hreplies], hmirrors', fun before last hcalls hsyncs => ?_⟩
    rcases before with _ | ⟨first, before⟩
    · obtain ⟨rfl, rfl⟩ := List.cons.inj hcalls
      exact hsaved hsyncs
    · obtain ⟨rfl, hrest⟩ := List.cons.inj hcalls
      exact hsaved' before last hrest hsyncs

/-- A file that is opened and then called. -/
private theorem run_opened (path : String) {entry : Entry} {content : SparseFile} (hentry : entry.Provides content)
    {pageSize : Nat} (hpageSize : checkPageSize pageSize = .ok ()) {calls : List FileCall}
    (hfits : (runAll answer calls (opened content pageSize)).2.image.size < 2 ^ 32 * pageSize) {first : Nat}
    (hfirst : 1 ≤ first) {frames : List Nat} (hframes : ∀ n ∈ frames, 1 ≤ n) (hlength : frames.length = calls.length) :
    ∃ file, openOrCreate path entry pageSize first = .ok file ∧
      (runAll (CachedFile.answer path) (calls.zip frames) file).1 = (runAll answer calls (opened content pageSize)).1 ∧
      (runAll answer calls (opened content pageSize)).2.Mirrors
        (runAll (CachedFile.answer path) (calls.zip frames) file).2 ∧
      ∀ before last, calls = before ++ [last] → last.Syncs →
        (runAll (CachedFile.answer path) (calls.zip frames) file).2.Saved := by
  have hcalls : (calls.zip frames).map Prod.fst = calls := List.map_fst_zip (Nat.le_of_eq hlength.symm)
  obtain ⟨file, hopen, hmirrors, -⟩ :=
    opened_mirrors path hentry hpageSize (Nat.lt_of_le_of_lt (size_le_runAll _ _) hfits) hfirst
  obtain ⟨hreplies, hmirrors', hsaved⟩ := hmirrors.run path hpageSize
    (fun call hcall => hframes call.2 (List.of_mem_zip hcall).2) (by rw [hcalls]; exact hfits)
  rw [hcalls] at hreplies hmirrors'
  refine ⟨file, hopen, hreplies, hmirrors', fun before last hlast hsyncs => ?_⟩
  obtain ⟨front, n, rfl⟩ : ∃ front n, frames = front ++ [n] := by
    rcases List.eq_nil_or_concat frames with rfl | ⟨front, n, hfront⟩
    · simp [hlast] at hlength
    · exact ⟨front, n, hfront.trans List.concat_eq_append⟩
  have hfront : before.length = front.length := by
    simpa [hlast] using hlength.symm
  refine hsaved (before.zip front) (last, n) ?_ hsyncs
  rw [hlast, List.zip_append hfront]
  rfl

end FlatFile

open FlatFile in
/-- A file behind a cache replies to all calls as an array of bytes does, as long as it has less than 2^32 pages: the
bytes that the file held at first, filled up with zeros.  After a call that brings the disk up to date the file on disk
is that array.  The sizes of the caches, at first and for each call that opens the file, do not matter. -/
theorem cached_file_is_array (path : String) {entry : Entry} {content : SparseFile} (hentry : entry.Provides content)
    {pageSize : Nat} (hpageSize : checkPageSize pageSize = .ok ()) {calls : List FileCall}
    (hfits : (runAll answer calls (opened content pageSize)).2.image.size < 2 ^ 32 * pageSize) {first : Nat}
    (hfirst : 1 ≤ first) {frames : List Nat} (hframes : ∀ n ∈ frames, 1 ≤ n) (hlength : frames.length = calls.length) :
    ∃ file, CachedFile.openOrCreate path entry pageSize first = .ok file ∧
      (runAll (CachedFile.answer path) (calls.zip frames) file).1 = (runAll answer calls (opened content pageSize)).1 ∧
      (∀ before last, calls = before ++ [last] → last.Syncs →
        (runAll (CachedFile.answer path) (calls.zip frames) file).2.onDisk.length =
          (runAll answer calls (opened content pageSize)).2.image.size ∧
        ∀ i, (runAll (CachedFile.answer path) (calls.zip frames) file).2.onDisk.byteAt i =
          (runAll answer calls (opened content pageSize)).2.image.byte i) ∧
      ∀ first' frames', 1 ≤ first' → (∀ n ∈ frames', 1 ≤ n) → frames'.length = calls.length →
        ∃ file', CachedFile.openOrCreate path entry pageSize first' = .ok file' ∧
          (runAll (CachedFile.answer path) (calls.zip frames') file').1 =
            (runAll (CachedFile.answer path) (calls.zip frames) file).1 := by
  obtain ⟨file, hopen, hreplies, hmirrors, hsaved⟩ :=
    run_opened path hentry hpageSize hfits hfirst hframes hlength
  refine ⟨file, hopen, hreplies, fun before last hlast hsyncs => ?_, fun first' frames' hfirst' hframes' hlength' => ?_⟩
  · obtain ⟨hdisk, hbytes⟩ := hsaved before last hlast hsyncs
    rw [← hmirrors.image_eq]
    exact ⟨hdisk, hbytes⟩
  · obtain ⟨file', hopen', hreplies', -, -⟩ := run_opened path hentry hpageSize hfits hfirst' hframes' hlength'
    exact ⟨file', hopen', hreplies'.trans hreplies.symm⟩

/-- A file of three bytes that is read, grown, written to across a page boundary, opened again and closed. -/
private def tornCalls : List FileCall :=
  [.read 0 5, .grow 300, .write 254 (ofList [7, 8, 9]), .size, .reopen, .read 252 6, .read 510 3, .close, .size]

private def tornContent : SparseFile := SparseFile.empty.write 0 (ofList [1, 2, 3])

theorem torn_file_is_array :
    ∃ file, CachedFile.openOrCreate "store" (.regular tornContent) 256 1 = .ok file ∧
      (runAll (CachedFile.answer "store") (tornCalls.zip [1, 1, 1, 1, 2, 1, 1, 1, 1]) file).1 =
        [.ok (.bytes (ofList [1, 2, 3, 0, 0])), .ok .done, .ok .done, .ok (.number 512), .ok .done,
          .ok (.bytes (ofList [0, 0, 7, 8, 9, 0])), .error (.outOfBounds 510 3 512), .ok .done, .error .closed] := by
  have hcontent : Entry.Provides (.regular tornContent) tornContent := .inl rfl
  have hpageSize : checkPageSize 256 = .ok () := by decide
  have hfits : (runAll FlatFile.answer tornCalls (.opened tornContent 256)).2.image.size < 2 ^ 32 * 256 := by decide
  obtain ⟨file, hopen, hreplies, -⟩ := cached_file_is_array "store" hcontent hpageSize hfits (Nat.le_refl 1)
    (show ∀ n ∈ [1, 1, 1, 1, 2, 1, 1, 1, 1], 1 ≤ n by decide) rfl
  refine ⟨file, hopen, hreplies.trans ?_⟩
  decide +kernel

end RecordStore
