import RecordStore.Proofs.Refinement

/-!
# Recovery

What is found of a run that was cut off between two calls of the storage, while no call failed before.  An operation
that was cut off is found as a whole or not at all (`cut_off_recovers`): what it leaves is always the image of a store,
with redirects in a little less order and perhaps a copy behind the slots that nothing leads to (`Image.Worn`).
-/

namespace RecordStore

open StorageView

/-- `n` calls pass and all others fail. -/
def FaultPlan.cutOff (n : Nat) : FaultPlan := fun before _ _ => if before.length < n then .proceed else .fail

/-- The storage with `n` more calls to come. -/
def Unreliable.cutOff {σ : Type} (storage : σ) (n : Nat) : Unreliable σ :=
  { inner := storage, reported := none, faults := { plan := .cutOff n, decided := [], log := [] }, lost := false }

theorem Unreliable.usable_cutOff {σ : Type} [PagedStorage σ] {contract : StorageContract σ} {storage : σ}
    (h : contract.Usable storage) (n : Nat) : (Unreliable.contract contract).Usable (cutOff storage n) := by
  refine ⟨h, rfl, fun before call offset value => ?_⟩
  change (if before.length < n then Verdict.proceed else .fail) ≠ _
  split <;> nofun

namespace Session

variable {σ : Type} [PagedStorage σ] {contract : StorageContract σ} {session : Session σ} {layout : Layout}
  {store : Store} {status : FileStatus} {img : Image}

/-- The session with `n` more calls of its storage to come. -/
def cutOff (session : Session σ) (n : Nat) : Session (Unreliable σ) :=
  { session with storage := .cutOff session.storage n }

/-- A session that is opened with a recount on a storage that holds the image, and whose calls do not fail, has found a
store as `found` says, and its counters agree with a scan. -/
def Recovers (img : Image) (found : Counters → Store → Prop) : Prop :=
  ∀ (τ : Type) [PagedStorage τ] (contract : StorageContract τ) (storage : τ) (policy : CapacityPolicy)
    (options : Options),
    ¬contract.fallible → contract.Usable storage → contract.image storage = img → options.recover = true →
      3 ≤ options.maxHops → ∃ session store, openOn storage policy options = .ok session ∧
        found session.counters store ∧ session.Mirrors store ∧ (countSlots session).1 = .ok session.counters

theorem Recovers.mono {found found' : Counters → Store → Prop} (h : Recovers img found)
    (himp : ∀ counters store, found counters store → found' counters store) : Recovers img found' := by
  intro τ _ contract storage policy options hreliable husable himage hrecover hhops
  obtain ⟨session, store, hopen, hfound, hrest⟩ := h τ contract storage policy options hreliable husable
    himage hrecover hhops
  exact ⟨session, store, hopen, himp _ _ hfound, hrest⟩

/-- What counts of a store is its records. -/
private theorem Mirrors.congr (h : session.Mirrors store) {store' : Store} (hrecords : store'.records = store.records) :
    session.Mirrors store' := by
  have hids : store'.ids = store.ids := congrArg (List.flatMap StoredRecord.ids) hrecords
  exact ⟨by rw [hids]; exact h.missing, by rw [hrecords]; exact h.deleted, by rw [hrecords]; exact h.live,
    by rw [hrecords]; exact h.kept⟩

/-- What a session finds that serves a store whose chains are short enough. -/
private theorem found_of_serves (hreliable : ¬contract.fallible) (husable : contract.Usable session.storage)
    (h : (session.seen contract.toStorageView).Serves layout store)
    (hloose : ∀ record ∈ store.records, layout.Loose record) (hhops : 3 ≤ session.maxHops) :
    session.counters = store.counters ∧ session.Mirrors store ∧ (countSlots session).1 = .ok session.counters := by
  have hnear : ∀ record ∈ store.records, ∀ id ∈ record.ids, layout.Near id session.maxHops :=
    fun record hrecord id hid =>
      ((hloose record hrecord).near (h.keeps.represents.stores record hrecord) hid).mono hhops
  refine ⟨h.counters_eq, mirrors_of_serves hreliable husable h hnear, ?_⟩
  rcases (countSlots_performs h session husable rfl).2.2 with hscan | ⟨hfallible, -⟩
  · exact hscan
  · exact absurd hfallible hreliable

/-- An image that keeps a store with loose redirects is opened as that store; slots that are found behind it are
padding. -/
private theorem recovers_of_keeps (h : img.Keeps layout store status)
    (hloose : ∀ record ∈ store.records, layout.Loose record) {base : Layout} {stop' : Nat}
    (hpadded : layout.Padded store.stop base stop') (hbase : base.Tracks img stop') (hends : base.Ends img stop') :
    Recovers img fun counters found => found = store ∧
      (counters = store.counters ∨ counters = ({ store with stop := stop' } : Store).counters) := by
  rintro τ _ contract storage policy options hreliable husable rfl hrecover hhops
  cases status with
  | closed =>
    obtain ⟨session, hopen, husable', hserves, hmaxHops, -⟩ :=
      (openOn_closed husable h policy options).exists_session fun e img hfailed => hreliable hfailed.1
    rw [← show session.maxHops = options.maxHops from hmaxHops] at hhops
    obtain ⟨hcounters, hmirrors, hscan⟩ := found_of_serves hreliable husable' hserves hloose hhops
    exact ⟨session, store, hopen, ⟨rfl, .inl hcounters⟩, hmirrors.congr rfl, hscan⟩
  | opened =>
    obtain ⟨session, hopen, husable', hserves, hmaxHops, -⟩ :=
      (openOn_recovering husable h hpadded hbase hends policy hrecover).exists_session fun e img hfailed =>
        hreliable hfailed.1
    rw [← show session.maxHops = options.maxHops from hmaxHops] at hhops
    have hloose' : ∀ record ∈ store.records, base.Loose record := by
      intro record hrecord
      refine (hloose record hrecord).congr (h.represents.stores record hrecord) fun id hid => ?_
      rw [Layout.header, hpadded.slot_eq h.tracks (h.represents.mem_ids hrecord hid), Layout.header]
    obtain ⟨hcounters, hmirrors, hscan⟩ := found_of_serves hreliable husable' hserves hloose' hhops
    exact ⟨session, store, hopen, ⟨rfl, .inr hcounters⟩, hmirrors.congr rfl, hscan⟩

theorem recovers_of_worn (h : img.Keeps layout store status) (hworn : img.Worn layout store) :
    Recovers img fun _ found => found = store := by
  obtain ⟨base, stop', hpadded, hbase, hends⟩ := hworn.tail
  exact (recovers_of_keeps h hworn.loose hpadded hbase hends).mono fun _ _ hfound => hfound.1

/-- Of a run that was not in the middle of an operation the counters are found as well. -/
theorem recovers_of_clean (h : img.Keeps layout store status) (hclean : img.Clean layout store) :
    Recovers img fun counters found => counters = store.counters ∧ found = store := by
  have hfound := recovers_of_keeps h (hclean.worn h.tracks).loose .whole h.tracks (.blank hclean.blank)
  exact hfound.mono fun counters _ hfound => ⟨hfound.2.elim id id, hfound.1⟩

theorem recovers_of_blank (h : img.Blank) (policy : CapacityPolicy) :
    Recovers img fun _ found => found = .empty img.pageSize policy := by
  rintro τ _ contract storage policy' options hreliable husable rfl - hhops
  obtain ⟨session, hopen, husable', hserves, hmaxHops, -⟩ :=
    (openOn_blank husable h policy' options).exists_session fun e img hfailed => hreliable hfailed.1
  rw [← show session.maxHops = options.maxHops from hmaxHops] at hhops
  obtain ⟨-, hmirrors, hscan⟩ := found_of_serves hreliable husable' hserves
    (fun record hrecord => absurd hrecord List.not_mem_nil) hhops
  exact ⟨session, _, hopen, rfl, hmirrors.congr rfl, hscan⟩

/-- The image that is left where opening was cut off after `n` calls. -/
def leftByOpening (contract : StorageContract σ) (storage : σ) (policy : CapacityPolicy) (options : Options) (n : Nat) :
    Image :=
  match openOn (Unreliable.cutOff storage n) policy options with
  | .ok session => contract.image session.storage.inner
  | .error (_, storage) => contract.image storage.inner

/-- A blank file that was cut off while it was opened is found to be without records. -/
theorem leftByOpening_recovers {storage : σ} (husable : contract.Usable storage)
    (hblank : (contract.image storage).Blank) (policy : CapacityPolicy) (options : Options) (n : Nat) :
    Recovers (leftByOpening contract storage policy options n) fun _ found =>
      found = .empty (contract.image storage).pageSize policy := by
  have hopens := openOn_blank (Unreliable.usable_cutOff husable n) hblank policy options
  have hkeeps : ∀ {img : Image}, img.Keeps .empty (.empty (contract.image storage).pageSize policy) .opened →
      img.BlankFrom FileHeader.size →
        Recovers img fun _ found => found = .empty (contract.image storage).pageSize policy :=
    fun hkeeps hzeros => recovers_of_worn hkeeps (Image.Clean.worn (.empty hzeros) hkeeps.tracks)
  unfold leftByOpening
  rcases hopen : openOn (Unreliable.cutOff storage n) policy options with ⟨e, after⟩ | session
  · obtain ⟨-, -, hpageSize, hblank' | hfresh⟩ := hopens.of_eq_error hopen
    · have hrecovers := recovers_of_blank hblank' policy
      rw [hpageSize] at hrecovers
      exact hrecovers
    · exact hkeeps hfresh.keeps hfresh.zeros
  · obtain ⟨-, hserves, -, hzeros⟩ := hopens.of_eq_ok hopen
    exact hkeeps hserves.keeps hzeros

/-- An operation that was cut off is found as a whole or not at all, and as a whole if it was answered. -/
theorem Intact.cutOff_recovers (h : Intact contract session store) (event : Event) (n : Nat) :
    let cut := handle (Unreliable.contract contract).reopen event (session.cutOff n)
    Recovers (contract.image cut.2.storage.inner) fun _ found =>
      (found = store ∨ found = (store.respond event).2) ∧
        ((∀ cause, cut.1 ≠ .error (.io cause)) → found = (store.respond event).2) := by
  obtain ⟨layout, hserves, hclean, hnear⟩ := h.exists_near
  have hserves' : ((session.cutOff n).seen (Unreliable.contract contract).toStorageView).Serves layout store := hserves
  have hensues := handle_ensues (Unreliable.usable_cutOff h.usable n) hserves' event fun _ => hclean.blank
  intro cut
  change Ensues _ _ _ _ _ cut.1 cut.2 at hensues
  generalize cut.1 = result at hensues ⊢
  generalize cut.2 = after at hensues ⊢
  cases hensues with
  | lost _ _ hkeeps hworn =>
    -- cut off while the file was closed or opened again
    refine (recovers_of_worn hkeeps (hworn hclean)).mono fun _ found hfound => ⟨.inl hfound, fun hanswered => ?_⟩
    exact absurd rfl (hanswered _)
  | served _ hafter _ houtcome _ hworn =>
    refine (recovers_of_worn hafter.keeps (hworn hclean)).mono fun _ found hfound => ?_
    rcases houtcome.respond_or_failed with hrespond | ⟨hsame, e, rfl, he⟩
    · rw [hrespond]
      exact ⟨.inr hfound, fun _ => hfound⟩
    · -- cut off before the operation counts
      obtain ⟨-, cause, rfl⟩ := he.exists_io hnear
      exact ⟨.inl (hfound.trans hsame), fun hanswered => absurd rfl (hanswered cause)⟩

/-- A run without failing calls that starts from a blank storage can be cut off between any two calls: while the storage
is opened for the first time, between two events, or in the middle of one.  A session that is opened then with a recount
finds the records as they were before that event or as they would be after it. -/
theorem cut_off_recovers (hreliable : ¬contract.fallible) {storage : σ} (husable : contract.Usable storage)
    (hblank : (contract.image storage).Blank) (policy : CapacityPolicy) {options : Options}
    (hhops : 2 ≤ options.maxHops) :
    (∀ n, Recovers (leftByOpening contract storage policy options n) fun _ found =>
      found = .empty (contract.image storage).pageSize policy) ∧
    ∀ events : List Event, (∀ event ∈ events, event.Allows 2) → ∃ session, openOn storage policy options = .ok session ∧
      let run := runAll (handle contract.reopen) events session
      let expected := runAll Store.respond events (.empty (contract.image storage).pageSize policy)
      run.1 = expected.1 ∧
      Recovers (contract.image run.2.storage) (fun counters found => counters = run.2.counters ∧ found = expected.2) ∧
      ∀ event n,
        let cut := handle (Unreliable.contract contract).reopen event (run.2.cutOff n)
        Recovers (contract.image cut.2.storage.inner) fun _ found =>
          (found = expected.2 ∨ found = (expected.2.respond event).2) ∧
            ((∀ cause, cut.1 ≠ .error (.io cause)) → found = (expected.2.respond event).2) := by
  refine ⟨leftByOpening_recovers husable hblank policy options, fun events hevents => ?_⟩
  obtain ⟨session, hopen, hintact⟩ := Intact.of_openOn hreliable husable hblank policy hhops
  obtain ⟨hresults, hlast⟩ := hintact.run hreliable hevents
  obtain ⟨layout, hserves, hclean⟩ := hlast.served
  refine ⟨session, hopen, hresults, ?_, hlast.cutOff_recovers⟩
  have hcounters : (runAll (handle contract.reopen) events session).2.counters = _ := hserves.counters_eq
  rw [hcounters]
  exact recovers_of_clean hserves.keeps hclean

/-- An update that is cut off when the copy has been written and nothing leads to it yet. -/
theorem cut_off_recovers_in_memory : ∃ session, openOn (Memory.zeros 256 0) .exactDefault .default = .ok session ∧
    let run := runAll (handle Memory.contract.reopen) [.request (.insert ⟨#[1]⟩)] session
    let update : Request := .update firstId ⟨#[1, 2, 3, 4, 5, 6, 7, 8, 9]⟩
    let cut := handle (Unreliable.contract Memory.contract).reopen (.request update) (run.2.cutOff 3)
    Recovers cut.2.storage.inner.image fun _ found =>
      found.records = [⟨firstId, [], 1, some ⟨#[1]⟩⟩] ∨
        found.records = [⟨secondId, [firstId], 9, some ⟨#[1, 2, 3, 4, 5, 6, 7, 8, 9]⟩⟩] := by
  have hreliable : ¬Memory.contract.fallible := id
  have hblank : (Memory.zeros 256 0).image.Blank := ⟨⟨by decide, by decide, by decide⟩, fun _ _ => rfl⟩
  obtain ⟨-, hruns⟩ := cut_off_recovers hreliable (Memory.usable_zeros (by decide) rfl) hblank .exactDefault
    (show 2 ≤ Options.default.maxHops by decide)
  obtain ⟨session, hopen, -, -, hcut⟩ := hruns [.request (.insert ⟨#[1]⟩)] (by decide)
  refine ⟨session, hopen, (hcut _ 3).mono fun _ found hfound => ?_⟩
  rcases hfound.1 with rfl | rfl
  · exact .inl rfl
  · exact .inr rfl

end Session

end RecordStore
