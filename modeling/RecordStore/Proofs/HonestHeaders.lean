import RecordStore.Proofs.SessionsInUse

/-!
# File headers that tell the truth

What the file header says about the end of the last session.  It is honest if it calls a file closed only when the last
session closed it (`Image.Honest`).  A session in use keeps the header marked as that of a file in use
(`Session.Marking`), whatever the storage holds and whatever calls fail: only the header itself is written in front of
its counters, as there is nothing that could be taken for a redirect (`Image.Marked.redirectsFrom`).
-/

namespace RecordStore

open Bytes StorageView

/-! ### Images -/

namespace Image

variable {img img' : Image} {last : Option Counters} {header : FileHeader}

/-- If the header says that the last session closed the file, the counters that it closed the file with are `last`, and
the header holds them. -/
def Honest (last : Option Counters) (img : Image) : Prop :=
  ∀ header, FileHeader.decode (img.read 0 FileHeader.size).data.toList = .ok (some header) → header.status = .closed →
    ∃ held, last = some held ∧ header.counters = held.inWords

/-- The status is not that of a closed file, and the bytes in front of it are not those of a redirect. -/
structure Marked (img : Image) : Prop where
  status : img.byte 12 ≠ 1
  tag : img.byte 8 ≠ SlotHeader.movedTag

/-- The bytes of the header in front of its counters. -/
def statusEnd : Nat := 16

theorem Honest.congr (h : img.Honest last) (hagree : img.AgreeOn img' 0 FileHeader.size) : img'.Honest last := by
  have hread : img'.read 0 FileHeader.size = img.read 0 FileHeader.size := AgreeOn.read_eq (by simpa using hagree)
  unfold Honest
  rw [hread]
  exact h

theorem honest_of_bare (h : ∀ i < FileHeader.size, img.byte i = 0) : img.Honest last := by
  intro header hdecode
  rw [toList_read_of_zeros fun i _ hi => h i (by omega)] at hdecode
  cases hdecode

namespace Marked

theorem honest (h : img.Marked) : img.Honest last := by
  intro header hdecode hstatus
  obtain ⟨hnone, -⟩ | ⟨header', hsome, -, hcode⟩ := FileHeader.decode_eq_ok hdecode
  · cases hnone
  · cases hsome
    rw [hstatus] at hcode
    have hbyte := FileHeader.byte_of_closed hcode
    have hread : (img.read 0 FileHeader.size).data.toList[12]? = some (img.byte (0 + 12)) := by
      simp [read, ofList, FileHeader.size]
    rw [hread] at hbyte
    exact absurd (Option.some.inj hbyte) h.status

theorem of_agreeOn (h : img.Marked) (hagree : img.AgreeOn img' 0 statusEnd) : img'.Marked := by
  unfold statusEnd at hagree
  refine ⟨?_, ?_⟩
  · rw [hagree 12 (by decide) (by decide)]
    exact h.status
  · rw [hagree 8 (by decide) (by decide)]
    exact h.tag

/-- The only identifier in front of the counters is that of the page size and the status. -/
theorem redirectsFrom (h : img.Marked) : img.RedirectsFrom statusEnd := by
  refine ⟨by decide, fun id hid => Nat.not_lt.1 fun hlt => h.tag ?_⟩
  have hpos := id.index_pos
  have hoffset : id.offset = id.index * 8 := rfl
  unfold statusEnd at hlt
  rw [← hid, show id.offset = 8 by omega]

end Marked

/-- The header of a file in use. -/
theorem marked_write (hstatus : header.status = .opened) (hpageSize : SupportedPageSize header.pageSize) (img : Image) :
    (img.write 0 (ofList header.encode)).Marked := by
  have hbyte : ∀ i < FileHeader.size, (img.write 0 (ofList header.encode)).byte i = header.encode[i]?.getD 0 := by
    intro i hi
    rw [byte_write, if_pos ⟨Nat.zero_le _, by simpa using hi⟩]
    simp [Bytes.byte, ofList]
  refine ⟨?_, ?_⟩
  · rw [hbyte 12 (by decide)]
    change UInt8.ofNat header.status.code ≠ 1
    rw [hstatus]
    decide
  · rw [hbyte 8 (by decide)]
    change UInt8.ofNat header.pageSize ≠ 2
    intro htag
    have haligned : header.pageSize % 8 = 0 := hpageSize.aligned
    have hlow : header.pageSize % 256 = 2 := by
      have := congrArg UInt8.toNat htag
      simpa using this
    omega

/-- The header of a file that is closed with its counters. -/
theorem honest_write (hversion : header.version = FileHeader.currentVersion)
    (hpageSize : SupportedPageSize header.pageSize) (img : Image) :
    (img.write 0 (ofList header.encode)).Honest (some header.counters) := by
  intro header' hdecode _
  rw [read_header (img.holds_write 0 _), FileHeader.decode_encode_inWords hversion hpageSize.fits] at hdecode
  cases hdecode
  exact ⟨_, rfl, rfl⟩

end Image

namespace Session

variable {σ : Type} [PagedStorage σ] {contract : StorageContract σ} {session after : Session Image} {img : Image}
  {last : Option Counters}

/-! ### Sessions in use -/

/-- The session says in memory and in its storage that the file is in use. -/
structure Marking (session : Session Image) : Prop where
  sound : session.Sound
  version : session.header.version = FileHeader.currentVersion
  pageSize : SupportedPageSize session.header.pageSize
  status : session.header.status = .opened
  marked : session.storage.Marked

theorem Marking.of_amends (h : session.Marking) (hsound : after.Sound) (hamends : Amends Image.statusEnd session after) :
    after.Marking := by
  obtain ⟨counters, hheader⟩ := hamends.header
  refine ⟨hsound, ?_, ?_, ?_, h.marked.of_agreeOn hamends.front⟩
  · rw [hheader]
    exact h.version
  · rw [hheader]
    exact h.pageSize
  · rw [hheader]
    exact h.status

/-- What is written behind the counters is no mark. -/
theorem Atomic.marking {α : Type} {result : Except StoreError α} (h : Atomic Image.statusEnd session result after)
    (hmarking : session.Marking) : after.Marking := by
  refine hmarking.of_amends (h.sound hmarking.sound) ?_
  cases h with
  | done hsound hamends => exact hamends
  | undone hchanged =>
    exact ⟨⟨_, rfl⟩, hchanged.size, hchanged.agreeOn (hmarking.sound.start_le hmarking.marked.redirectsFrom)⟩

/-- Writing the header marks the file. -/
theorem persist_marking (h : session.Sound) (hversion : session.header.version = FileHeader.currentVersion)
    (hpageSize : SupportedPageSize session.header.pageSize) (hstatus : session.header.status = .opened) :
    Performs contract.toStorageView persist session fun result after =>
      after.Marking ∧ after = { session with storage := after.storage } ∨ after = session ∧ ∃ e, result = .error e := by
  refine (persist_keeps session (Nat.le_trans h.fits.start h.fits.bound)).mono ?_
  rintro result _ ⟨img, rfl, rfl | ⟨rfl, hfailed⟩⟩
  · exact .inl ⟨⟨h.of_changedWithin (.write _ (Nat.zero_le 0) (Nat.le_refl _)), hversion, hpageSize, hstatus,
      Image.marked_write hstatus hpageSize _⟩, rfl⟩
  · exact .inr ⟨rfl, hfailed⟩

private theorem Marking.persist (h : session.Marking) :
    Performs contract.toStorageView persist session fun _ after => after.Marking := by
  refine (persist_marking h.sound h.version h.pageSize h.status).mono ?_
  rintro _ after (⟨hafter, -⟩ | ⟨rfl, -⟩)
  · exact hafter
  · exact h

private theorem Marking.recount (h : session.Marking) :
    Performs contract.toStorageView recount session fun _ after => after.Marking := by
  refine (recount_keeps h.sound).mono ?_
  rintro _ _ ⟨hsound, counters, rfl, -⟩
  exact h.of_amends hsound ⟨⟨counters, rfl⟩, Nat.le_refl _, fun _ _ _ => rfl⟩

/-- Whatever happens to a session, the file stays marked as long as the session is not closed. -/
theorem handle_marking (h : session.Marking) (reopen : σ → σ) (event : Event)
    (hreopen : ∀ policy options, event ≠ .reopen policy options) :
    Performs contract.toStorageView (handle reopen event) session fun _ after => after.Marking := by
  refine handle_invariant h.sound h (fun request hflush => ?_) (fun _ hcurrent => hcurrent.persist) h.recount reopen event
    hreopen
  refine (perform_atomic_from h.sound h.marked.redirectsFrom hflush).mono ?_
  exact fun _ _ hatomic => hatomic.marking h

/-! ### Opening -/

/-- What is known of a header that opening goes on with. -/
structure Accepted (last : Option Counters) (img : Image) (header : FileHeader) (closed : Bool) : Prop where
  version : header.version = FileHeader.currentVersion
  supported : SupportedPageSize header.pageSize
  trusted : closed = true →
    (∀ i < FileHeader.size, img.byte i = 0) ∧ header = FileHeader.new img.pageSize ∨
      ∃ held, last = some held ∧ header.counters = held.inWords

theorem Loads.honest {result : Except StoreError (FileHeader × Bool)} {after : Image} (h : Loads img result after)
    (hhonest : img.Honest last) : after.Honest last := by
  cases h with
  | found => exact hhonest
  | refused => exact hhonest
  | grown => exact hhonest.congr fun _ _ _ => rfl
  | written hbare hsupported => exact (Image.marked_write rfl hsupported _).honest

theorem Loads.accepted {header : FileHeader} {closed : Bool} {after : Image} (h : Loads img (.ok (header, closed)) after)
    (hhonest : img.Honest last) : Accepted last img header closed := by
  generalize hresult : Except.ok (header, closed) = result at h
  cases h with
  | found hdecode hpageSize hfits =>
    cases hresult
    obtain ⟨hnone, -⟩ | ⟨header', hsome, hversion, -⟩ := FileHeader.decode_eq_ok hdecode
    · cases hnone
    · cases hsome
      refine ⟨hversion, hpageSize ▸ hfits.supported, fun hclosed => .inr ?_⟩
      exact hhonest header hdecode (of_decide_eq_true hclosed)
  | refused => cases hresult
  | grown => cases hresult
  | written hbare hsupported hsize hok =>
    rcases hok with hok | ⟨e, he⟩
    · rw [hok] at hresult
      cases hresult
      exact ⟨rfl, hsupported, fun _ => .inl ⟨hbare, rfl⟩⟩
    · rw [he] at hresult
      cases hresult

/-- How a session starts: it marks the file, unless a call fails. -/
structure Starts (last : Option Counters) (session : Session Image) (result : Except StoreError Unit)
    (after : Session Image) : Prop where
  honest : after.storage.Honest last
  marking : result = .ok () → after.Marking
  loaded : result = .ok () → after.wasClosedProperly = session.wasClosedProperly ∧
    (session.wasClosedProperly = true → after.header = { session.header with status := .opened })

theorem start_starts (h : session.Sound) (hversion : session.header.version = FileHeader.currentVersion)
    (hpageSize : SupportedPageSize session.header.pageSize) (hhonest : session.storage.Honest last) (recover : Bool) :
    Performs contract.toStorageView (start recover) session (Starts last session) := by
  -- with the counters that it goes on with
  have hrest : ∀ counted : Session Image, counted.Sound → (∃ counters, counted =
      { session with header := { session.header with counters } } ∧
        (session.wasClosedProperly = true → counters = session.header.counters)) →
      Performs contract.toStorageView (do
        modify fun session => { session with header := { session.header with status := .opened } }
        persist) counted (Starts last session) := by
    rintro _ hsound ⟨counters, rfl, hcounters⟩
    refine Performs.step (markOpened_performs ?_)
    have hmarked : Sound { session with header := { session.header with counters, status := .opened } } :=
      ⟨hsound.opened, hsound.fits⟩
    refine (persist_marking hmarked hversion hpageSize rfl).mono ?_
    rintro result after (⟨hmarking, hafter⟩ | ⟨rfl, e, rfl⟩)
    · refine ⟨hmarking.marked.honest, fun _ => hmarking, fun _ => ?_⟩
      rw [hafter]
      exact ⟨rfl, fun hclosed => by rw [hcounters hclosed]⟩
    · exact ⟨hhonest, nofun, nofun⟩
  unfold start
  refine Performs.get_bind fun actual hactual => ?_
  have hactual' : actual.wasClosedProperly = session.wasClosedProperly := by
    rw [← hactual]
    rfl
  rw [hactual']
  cases hcut : !session.wasClosedProperly && recover with
  | false => exact hrest session h ⟨_, rfl, fun _ => rfl⟩
  | true =>
    refine Performs.step ((recount_keeps h).mono ?_)
    rintro (e | ⟨⟩) _ ⟨hsound, counters, rfl, -⟩
    · exact ⟨hhonest, nofun, nofun⟩
    · refine hrest _ hsound ⟨counters, rfl, fun hclosed => ?_⟩
      rw [hclosed] at hcut
      cases hcut

end Session

end RecordStore
