import RecordStore.Proofs.RecordedSlots
import RecordStore.Proofs.WholeScans

/-!
# Recovery once more

A recount that is done again comes to the same end.  The first one counts the slots of the region and goes on behind it;
the second one finds what was behind it inside of the region and stops where the first one did, since nothing but the
file header has changed (`Recounted.again`).  So whatever a storage holds, recovery that succeeded leaves the counters of
a scan, and a storage that another recovery does not change.  Where no call has failed since a blank storage was opened,
recovery finds nothing that was not known, and writes what a flush writes (`recover_settles`).
-/

namespace RecordStore

open Bytes StorageView

namespace Region

variable {region : Region} {img img' : Image} {census census' : Census}

/-- Nothing behind the file header has changed. -/
private theorem slotSeen_congr (hchanged : img.ChangedWithin img' 0 FileHeader.size) {offset : Nat}
    (hoffset : FileHeader.size ≤ offset) : region.slotSeen img' offset = region.slotSeen img offset := by
  have hread : img'.read offset (min (region.pageEnd offset - offset) SlotHeader.fullSize) =
      img.read offset (min (region.pageEnd offset - offset) SlotHeader.fullSize) :=
    Image.AgreeOn.read_eq fun i hi _ => hchanged.byte i (.inr (Nat.le_trans hoffset hi))
  unfold slotSeen
  rw [hread]

private theorem Counts.congr (h : Counts region img census census') (hchanged : img.ChangedWithin img' 0 FileHeader.size)
    (hstart : FileHeader.size ≤ census.offset) : Counts region img' census census' := by
  induction h with
  | refl => exact .refl _
  | @step census _ header hlt hseen _ ih =>
    refine .step hlt (slotSeen_congr hchanged hstart ▸ hseen) (ih ?_)
    exact Nat.le_trans hstart (Nat.le_add_right census.offset header.slotSize)

/-- A recount comes to the same again, with a region that ends where the first one did. -/
theorem Recounted.again (h : region.Recounted img census) (hchanged : img.ChangedWithin img' 0 FileHeader.size)
    (hsize : img'.size = img.size) : ({ region with stop := census.offset } : Region).Recounted img' census where
  counts := h.counts.congr hchanged (Nat.le_refl _)
  ends := by
    have hstart := h.reached.start
    intro hlt
    rw [hsize] at hlt ⊢
    rw [slotSeen_congr hchanged hstart]
    exact h.ends hlt
  stop := Nat.le_refl _
  reached := hsize ▸ h.reached

section Answers

variable {σ : Type} [PagedStorage σ] (contract : StorageContract σ) (h : region.Recounted img census)
  (hfits : region.Fits img) (hstop : region.stop = census.offset)

include h hfits hstop

private theorem Recounted.takeCensus_answers :
    contract.Answers (region.takeCensus .start) img (.ok census) := by
  have hcounts := h.counts
  rw [← hstop] at hcounts
  exact hcounts.takeCensus_reads hfits hstop.symm σ contract

/-- A count of a region that ends where a recount does gives the same. -/
theorem Recounted.count_answers : contract.Answers region.count img (.ok census.counters) :=
  (h.takeCensus_answers contract hfits hstop).bind (Answers.pure _)

theorem Recounted.recount_answers : contract.Answers region.recount img (.ok census.counters) := by
  refine contract.runs_of_wellFormed fun hwf => ?_
  unfold recount
  refine (h.takeCensus_answers contract hfits hstop).bind (contract.size_answers.bind ?_)
  exact (h.ends.extendCensus_reads (hfits.whole hwf) σ contract).bind (Answers.pure _)

end Answers

end Region

namespace Session

variable {σ : Type} [PagedStorage σ] {contract : StorageContract σ} {session : Session Image}

/-! ### Any storage -/

/-- The session with other counters, which the file header in the file has as well. -/
def recorded (session : Session Image) (counters : Counters) : Session Image :=
  let header := { session.header with counters }
  { session with header, storage := session.storage.write 0 (ofList header.encode) }

theorem changedWithin_recorded (session : Session Image) (counters : Counters) :
    session.storage.ChangedWithin (session.recorded counters).storage 0 FileHeader.size :=
  .write _ (Nat.le_refl _) (by simp [FileHeader.length_encode])

/-- Another recovery would count the same slots, and the header in the file says so already. -/
structure Settled (session : Session Image) (census : Census) : Prop extends session.Sound where
  counters : session.counters = census.counters
  recounted : session.region.Recounted session.storage census
  holds : session.storage.Holds 0 (ofList session.header.encode)

/-- Recovery that succeeds records what a recount comes to. -/
theorem recover_records (h : session.Sound) : Performs contract.toStorageView recover session
    fun result after => ∀ counters, result = .ok counters → after = session.recorded counters ∧
      ∃ census, after.Settled census ∧ session.counters.size ≤ counters.size := by
  unfold recover
  refine Performs.step (Performs.ensureOpen h.opened (Performs.step ((recount_keeps h).mono ?_)))
  rintro (e | ⟨⟩) _ ⟨hsound, counters, rfl, hcounted⟩
  · rintro counters ⟨⟩
  · obtain ⟨census, hrecounted, rfl⟩ := hcounted rfl
    refine Performs.step ((persist_keeps _ (Nat.le_trans hsound.fits.start hsound.fits.bound)).mono ?_)
    rintro (e | ⟨⟩) _ ⟨img, rfl, rfl | ⟨-, e, he⟩⟩
    · rintro counters ⟨⟩
    · rintro counters ⟨⟩
    · refine Performs.get_bind fun actual hactual => Performs.pure ?_
      have hcounters : actual.counters = census.counters := congrArg (fun s => s.header.counters) hactual
      rw [hcounters]
      rintro _ ⟨⟩
      have hchanged := session.changedWithin_recorded census.counters
      exact ⟨rfl, census, ⟨hsound.of_changedWithin hchanged, rfl, hrecounted.again hchanged rfl,
        Image.holds_write _ _ _⟩, hrecounted.stop⟩
    · cases he

namespace Settled

variable {census : Census} (h : session.Settled census)

include h

theorem stop_eq : session.region.stop = census.offset := congrArg Counters.size h.counters

theorem countSlots_performs : Performs contract.toStorageView countSlots session fun result _ =>
    result = .ok session.counters ∨ contract.fallible ∧ ∃ cause, result = .error (.io cause) := by
  unfold countSlots
  refine Performs.step (Performs.ensureOpen h.opened ?_)
  refine Performs.get_bind fun actual hactual => ?_
  subst hactual
  have hcount : contract.Answers _ _ _ := h.recounted.count_answers contract h.fits h.stop_eq
  rw [← h.counters] at hcount
  exact Performs.onSlots (hcount.mono fun _ _ hresult => hresult.2)

/-- The header is written over itself. -/
private theorem persist_performs : Performs contract.toStorageView persist session fun result after => after = session ∧
    (result = .ok () ∨ contract.fallible ∧ ∃ cause, result = .error (.io cause)) := by
  have hsize : FileHeader.size ≤ session.storage.size := Nat.le_trans h.fits.start h.fits.bound
  unfold persist
  refine Performs.step (writeHeader_writes _ hsize ?_ fun hfallible cause => ⟨rfl, .inr ⟨hfallible, cause, rfl⟩⟩)
  rw [Image.write_of_holds h.holds]
  refine Performs.onSlots (contract.flush_answers.mono ?_)
  rintro result _ ⟨rfl, hresult⟩
  exact ⟨rfl, hresult⟩

/-- Recovery finds nothing to do. -/
theorem recover_performs : Performs contract.toStorageView recover session fun result after => after = session ∧
    (result = .ok session.counters ∨ contract.fallible ∧ ∃ cause, result = .error (.io cause)) := by
  unfold recover
  refine Performs.step (Performs.ensureOpen h.opened (Performs.step ?_))
  unfold recount
  refine Performs.get_bind fun actual hactual => ?_
  subst hactual
  have hrecount : contract.Answers _ _ _ := h.recounted.recount_answers contract h.fits h.stop_eq
  refine Performs.step (Performs.onSlots (hrecount.mono ?_))
  rintro _ _ ⟨rfl, rfl | ⟨hfallible, cause, rfl⟩⟩
  · dsimp only
    rw [← h.counters]
    refine Performs.setCounters (Performs.step (h.persist_performs.mono ?_))
    rintro (e | ⟨⟩) _ ⟨rfl, hresult⟩
    · obtain ⟨hfallible, cause, ⟨⟩⟩ := hresult.resolve_left (by rintro ⟨⟩)
      exact ⟨rfl, .inr ⟨hfallible, cause, rfl⟩⟩
    · refine Performs.get_bind fun last hlast => Performs.pure ⟨rfl, .inl ?_⟩
      exact congrArg (fun s => Except.ok s.header.counters) hlast
  · exact ⟨rfl, .inr ⟨hfallible, cause, rfl⟩⟩

end Settled

/-! ### Runs without failing calls -/

/-- A session that no failed call lies behind, whatever its limit on redirects. -/
structure Unharmed (contract : StorageContract σ) (session : Session σ) : Prop where
  usable : contract.Usable session.storage
  served : ∃ layout store, (session.seen contract.toStorageView).Serves layout store ∧
    (contract.image session.storage).Clean layout store

namespace Unharmed

theorem of_openOn {storage : σ} (husable : contract.Usable storage) (hblank : (contract.image storage).Blank)
    {policy : CapacityPolicy} {options : Options} {session : Session σ}
    (hopen : openOn storage policy options = .ok session) : Unharmed contract session := by
  obtain ⟨husable', hserves, -, hzeros⟩ := (openOn_blank husable hblank policy options).of_eq_ok hopen
  exact ⟨husable', .empty, _, hserves, .empty hzeros⟩

variable {session : Session σ} (hreliable : ¬contract.fallible) (h : Unharmed contract session)

include hreliable h

theorem step (event : Event) : Unharmed contract (handle contract.reopen event session).2 := by
  obtain ⟨layout, store, hserves, hclean⟩ := h.served
  have hensues := handle_ensues h.usable hserves event fun _ => hclean.blank
  generalize (handle contract.reopen event session).1 = result at hensues
  generalize (handle contract.reopen event session).2 = after at hensues ⊢
  cases hensues with
  | lost _ hfallible => exact absurd hfallible hreliable
  | @served _ _ layout' store' husable hserves' _ _ hclean' =>
    exact ⟨husable, layout', store', hserves', hclean' hclean hreliable⟩

theorem run (events : List Event) : Unharmed contract (runAll (handle contract.reopen) events session).2 := by
  induction events generalizing session with
  | nil => exact h
  | cons event rest ih =>
    rw [runAll_cons]
    exact ih (h.step hreliable event)

/-- Recovery finds what is known already. -/
theorem recover_eq : (recover session).1 = .ok session.counters ∧
    (recover session).2.seen contract.toStorageView =
      (session.seen contract.toStorageView).recorded session.counters := by
  obtain ⟨layout, store, hserves, hclean⟩ := h.served
  have hcounters : session.counters = store.counters := hserves.counters_eq
  have hresult : Performs contract.toStorageView recover (session.seen contract.toStorageView)
      fun result _ => result = .ok session.counters := by
    rw [hcounters]
    -- behind the slots there are zeros only, so the recount stops where they end
    refine recover_performs_of_tail hserves .whole hserves.keeps.tracks (.blank hclean.blank) ?_
      fun hfallible => absurd hfallible hreliable
    rintro _ _ - - (rfl | ⟨hfallible, -⟩)
    · rfl
    · exact absurd hfallible hreliable
  obtain ⟨-, hok⟩ := hresult session h.usable rfl
  obtain ⟨-, hrecorded⟩ := recover_records hserves.sound session h.usable rfl
  exact ⟨hok, (hrecorded _ hok).1⟩

theorem flush_eq : (flush session).2.seen contract.toStorageView =
    (session.seen contract.toStorageView).recorded session.counters := by
  obtain ⟨layout, store, hserves, hclean⟩ := h.served
  have hflush : Performs contract.toStorageView flush (session.seen contract.toStorageView)
      fun _ after => after = (session.seen contract.toStorageView).recorded session.counters := by
    have hsize := hserves.sound.fits
    unfold flush
    exact Performs.step (Performs.ensureOpen hserves.opened (persist_writes _ (Nat.le_trans hsize.start hsize.bound) rfl
      fun hfallible => absurd hfallible hreliable))
  exact (hflush session h.usable rfl).2

end Unharmed

/-- Recovery that succeeds leaves the counters of a scan, and a storage in which nothing but the file header has
changed and that another recovery does not change.  Where no call has failed since a blank storage was opened, recovery
gives the counters that were known, and leaves what a flush would leave. -/
theorem recover_settles :
    (∀ session : Session σ, InUse contract session → ∀ counters, (recover session).1 = .ok counters →
      let after := (recover session).2
      after.counters = counters ∧ session.counters.size ≤ counters.size ∧
        ((countSlots after).1 = .ok counters ∨
          contract.fallible ∧ ∃ cause, (countSlots after).1 = .error (.io cause)) ∧
        (contract.image after.storage).size = (contract.image session.storage).size ∧
        (contract.image session.storage).ChangedWithin (contract.image after.storage) 0 FileHeader.size ∧
        ((recover after).1 = .ok counters ∨ contract.fallible ∧ ∃ cause, (recover after).1 = .error (.io cause)) ∧
        contract.image (recover after).2.storage = contract.image after.storage) ∧
      (¬contract.fallible → ∀ storage policy options session events, contract.Usable storage →
        (contract.image storage).Blank → openOn storage policy options = .ok session →
          let last := (runAll (handle contract.reopen) events session).2
          (recover last).1 = .ok last.counters ∧
            contract.image (recover last).2.storage = contract.image (flush last).2.storage) := by
  refine ⟨fun session h counters hrecover => ?_, fun hreliable storage policy options session events husable hblank
    hopen => ?_⟩
  · obtain ⟨husable, hsound⟩ := h.sound
    obtain ⟨husable', hrecorded⟩ := recover_records hsound session husable rfl
    obtain ⟨hafter, census, hsettled, hsize⟩ := hrecorded counters hrecover
    have hcounters : (recover session).2.counters = counters := congrArg (fun s => s.header.counters) hafter
    have himage : contract.image (recover session).2.storage = _ := congrArg (fun s : Session Image => s.storage) hafter
    obtain ⟨-, hcount⟩ := hsettled.countSlots_performs _ husable' rfl
    obtain ⟨-, hsame, hagain⟩ := hsettled.recover_performs _ husable' rfl
    have hseen : ((recover session).2.seen contract.toStorageView).counters = counters := hcounters
    rw [hseen] at hcount hagain
    refine ⟨hcounters, hsize, hcount, ?_, ?_, hagain, congrArg (fun s : Session Image => s.storage) hsame⟩
    · rw [himage]
      rfl
    · rw [himage]
      exact changedWithin_recorded (session.seen contract.toStorageView) counters
  · -- without failures nothing is left to recover, and the header is written as by a flush
    have hunharmed := (Unharmed.of_openOn husable hblank hopen).run hreliable events
    obtain ⟨hok, hrecovered⟩ := hunharmed.recover_eq hreliable
    exact ⟨hok, congrArg (fun s : Session Image => s.storage) (hrecovered.trans (hunharmed.flush_eq hreliable).symm)⟩

theorem recover_settles_in_memory :
    (∃ session, openOn (foreignMemory firstId) .exactDefault .default = .ok session ∧
      (recover session).1 = .ok ⟨2, 0, 0, 25, 25, 128⟩ ∧
        (recover (recover session).2).1 = .ok ⟨2, 0, 0, 25, 25, 128⟩) ∧
      ∃ session, openOn (Memory.zeros 256 0) .exactDefault .default = .ok session ∧
        let last := (runAll (handle Memory.contract.reopen) sampleEvents session).2
        (recover last).1 = .ok last.counters ∧ (recover last).2.storage.image = (flush last).2.storage.image := by
  have hreliable : ¬Memory.contract.fallible := id
  constructor
  · have hrun : (openOn (foreignMemory firstId) .exactDefault .default).toOption.map (fun session =>
        (recover session).1) = some (.ok ⟨2, 0, 0, 25, 25, 128⟩) := by
      decide +kernel
    rcases hopen : openOn (foreignMemory firstId) .exactDefault .default with e | session
    · rw [hopen] at hrun
      cases hrun
    · rw [hopen] at hrun
      have hrecover : (recover session).1 = .ok ⟨2, 0, 0, 25, 25, 128⟩ := Option.some.inj hrun
      have huse : InUse Memory.contract session := .opened (usable_foreignMemory _) hopen
      obtain ⟨-, -, -, -, -, hagain, -⟩ := recover_settles.1 session huse _ hrecover
      exact ⟨session, rfl, hrecover, hagain.resolve_right fun hfailed => hfailed.1⟩
  · have husable : Memory.contract.Usable (Memory.zeros 256 0) := Memory.usable_zeros (by decide) rfl
    have hblank : (Memory.zeros 256 0).image.Blank := ⟨⟨by decide, by decide, by decide⟩, fun _ _ => rfl⟩
    obtain ⟨session, hopen, -⟩ := Intact.of_openOn hreliable husable hblank .exactDefault
      (show 2 ≤ Options.default.maxHops by decide)
    exact ⟨session, hopen, recover_settles.2 hreliable _ _ _ session sampleEvents husable hblank hopen⟩

end Session

end RecordStore
