import RecordStore.Command.Run
import RecordStore.Proofs.SessionCuts

/-!
# Calls of the program on one file

Every call of the program is a session of its own, closed even if the action fails.  Calls one after the other on the
file that they leave behind print and report what the same actions do in one session (`session_cuts_are_invisible`).
-/

namespace RecordStore

open Bytes

namespace Command

open Session (Alike InService Resumes Rules StandsFor)

/-! ### Calls -/

def failure? : Except Failure Unit → Option Failure
  | .ok () => none
  | .error failure => some failure

/-- A call of the program, and what it finds besides the file of the store. -/
structure Call where
  arguments : Arguments
  input : Option Entry
  standardInput : ByteArray

namespace Call

def surroundings (call : Call) (entry : Entry) : Surroundings :=
  { entry, input := call.input, standardInput := call.standardInput }

/-- What the call prints and how it fails, and what stands under the path of the store then. -/
def runOn (call : Call) (entry : Entry) : (ByteArray × Option Failure) × Entry :=
  let outcome := run call.arguments (call.surroundings entry)
  ((outcome.output, outcome.failure), (outcome.file.map Entry.regular).getD entry)

/-- The same in a session that goes on. -/
def within (call : Call) (session : Session CachedFile) : (ByteArray × Option Failure) × Session CachedFile :=
  let (result, session, output) :=
    carryOut (call.surroundings .missing) call.arguments.action (session, ByteArray.empty)
  ((output, failure? result), session)

end Call

/-! ### Actions side by side -/

/-- Two sessions side by side, with the same output so far. -/
structure Abreast (rules : Rules) (state state' : Session CachedFile × ByteArray) : Prop where
  alike : Alike rules state.1 state'.1
  left : state.1.InService
  right : state'.1.InService
  output : state'.2 = state.2

variable {α : Type} {rules : Rules} {state state' : Session CachedFile × ByteArray}

private theorem inSession_matched (h : Abreast rules state state') {act act' : SessionM CachedFile α}
    (hact : Matched (Alike rules) act act' state.1 state'.1) (hleft : (act state.1).2.InService)
    (hright : (act' state'.1).2.InService) :
    Matched (Abreast rules) (inSession act) (inSession act') state state' := by
  obtain ⟨hresult, hafter⟩ := hact
  unfold Matched inSession
  dsimp only
  rcases hrun : act state.1 with ⟨result, after⟩
  rcases hrun' : act' state'.1 with ⟨result', after'⟩
  rw [hrun, hrun'] at hresult hafter
  rw [hrun] at hleft
  rw [hrun'] at hright
  obtain rfl : result' = result := hresult
  have habreast : Abreast rules (after, state.2) (after', state'.2) := ⟨hafter, hleft, hright, h.output⟩
  cases result' with
  | error e => exact ⟨rfl, habreast⟩
  | ok a => exact ⟨rfl, habreast⟩

private theorem printBytes_matched (h : Abreast rules state state') (bytes : ByteArray) :
    Matched (Abreast rules) (printBytes bytes) (printBytes bytes) state state' :=
  ⟨rfl, h.alike, h.left, h.right, congrArg (· ++ bytes) h.output⟩

/-- What a request leaves in service, whatever becomes of its answer. -/
private theorem inService_of_answering {session : Session CachedFile} {act : SessionM CachedFile α} {reply : α → Reply}
    (h : ((act >>= fun a => pure (reply a)) session).2.InService) : (act session).2.InService := by
  rwa [SessionM.bind_pure_apply] at h

private theorem insert_inService {session : Session CachedFile} (h : session.InService) (payload : ByteArray) :
    (Session.insert payload session).2.InService := inService_of_answering (h.step (.request (.insert payload)))

private theorem update_inService {session : Session CachedFile} (h : session.InService) (id : RecordId)
    (payload : ByteArray) : (Session.update id payload session).2.InService :=
  inService_of_answering (h.step (.request (.update id payload)))

private theorem payload_file (around : Surroundings) (path : String) (state : Session CachedFile × ByteArray) :
    payload around (some (.file path)) state =
      (match around.input.getD (.regular state.1.storage.onDisk) with
        | .regular file => .ok (file.read 0 file.length)
        | .missing => .error (.unreadableInput path .noSuchFile)
        | .blocked cause => .error (.unreadableInput path cause), state) := by
  unfold payload
  refine (get_bind_apply _ _).trans ?_
  cases around.input.getD (.regular state.1.storage.onDisk) <;> rfl

/-- The file of the store is longer than a slot can be. -/
private theorem standsFor_onDisk {session session' : Session CachedFile} (h : Alike rules session session')
    (hservice : session.InService) :
    StandsFor session.pageSize (session.storage.onDisk.read 0 session.storage.onDisk.length)
      (session'.storage.onDisk.read 0 session'.storage.onDisk.length) := by
  have hsize : ∀ {file : CachedFile}, file.Usable → (file.onDisk.read 0 file.onDisk.length).size = file.size := by
    intro file husable
    rw [SparseFile.size_read, Nat.sub_zero, Nat.min_self]
    exact husable.size.symm
  refine ⟨?_, fun hfits => ?_⟩
  · rw [hsize h.storage.left, hsize h.storage.right, h.storage.size_eq]
  · rw [hsize h.storage.left] at hfits
    obtain ⟨layout, store, hserves, -⟩ := hservice.served
    have hpages : session.storage.pageSize = session.pageSize := hserves.keeps.pageSize_eq.trans hserves.pageSize
    have hlow := hservice.header_le
    have hle : session.storage.pageSize ≤ session.storage.size :=
      Nat.le_of_dvd (Nat.lt_of_lt_of_le (by decide) hlow) (Nat.dvd_of_mod_eq_zero h.storage.left.ready.size_mod)
    have hlarge : minPageSize ≤ session.storage.pageSize := h.storage.left.large
    unfold minPageSize at hlarge
    unfold SlotHeader.fullSize at hfits
    omega

/-- A payload that is read for both. -/
private theorem payload_bind (h : Abreast rules state state') {around around' : Surroundings}
    (hinput : around'.input = around.input) (hstandard : around'.standardInput = around.standardInput)
    (source : Option Source) {next next' : ByteArray → ActionM α}
    (hnext : ∀ bytes bytes', StandsFor state.1.pageSize bytes bytes' →
      Matched (Abreast rules) (next bytes) (next' bytes') state state') :
    Matched (Abreast rules) (payload around source >>= next) (payload around' source >>= next') state state' := by
  unfold Matched at hnext ⊢
  rw [bind_apply, bind_apply]
  rcases source with _ | value | _ | path
  · exact ⟨rfl, h⟩
  · exact hnext _ _ (.refl _ _)
  · refine hnext around.standardInput around'.standardInput ?_
    rw [hstandard]
    exact .refl _ _
  · rw [payload_file, payload_file, hinput]
    cases around.input with
    | none => exact hnext _ _ (standsFor_onDisk h.alike h.left)
    | some entry =>
      cases entry with
      | regular file => exact hnext _ _ (.refl _ _)
      | missing => exact ⟨rfl, h⟩
      | blocked cause => exact ⟨rfl, h⟩

private theorem put_matched (h : Abreast rules state state') {around around' : Surroundings}
    (hinput : around'.input = around.input) (hstandard : around'.standardInput = around.standardInput)
    (index : Option Nat) (source : Option Source) :
    Matched (Abreast rules) (carryOut around (.put index source)) (carryOut around' (.put index source)) state state' := by
  refine payload_bind h hinput hstandard source fun bytes bytes' hbytes => ?_
  cases index with
  | none =>
    refine .bind (inSession_matched h (Session.insert_matched h.alike hbytes) (insert_inService h.left bytes)
      (insert_inService h.right bytes')) fun id _ h => ?_
    exact printBytes_matched h _
  | some index =>
    refine .ofExcept_bind h fun id _ => ?_
    refine .bind (inSession_matched h (Session.update_matched h.alike h.left.anchored id hbytes)
      (update_inService h.left id bytes) (update_inService h.right id bytes')) fun id _ h => ?_
    exact printBytes_matched h _

private theorem scan_matched (h : Abreast rules state state') :
    Matched (Abreast rules) scan scan state state' := by
  obtain ⟨hresult, hafter⟩ := Session.scanWhile_alike h.alike fun _ => true
  have hleft : (Session.records state.1).2.InService := h.left.step (.scan fun _ => true)
  have hright : (Session.records state'.1).2.InService := h.right.step (.scan fun _ => true)
  rw [← Session.records_eq_scanWhile] at hresult hafter
  unfold Matched scan
  dsimp only
  rcases hrun : Session.records state.1 with ⟨⟨failure, slots⟩, after⟩
  rcases hrun' : Session.records state'.1 with ⟨⟨failure', slots'⟩, after'⟩
  rw [hrun, hrun'] at hresult hafter
  rw [hrun] at hleft
  rw [hrun'] at hright
  obtain ⟨rfl, rfl⟩ := Prod.mk.inj hresult
  have habreast : ∀ output, Abreast rules (after, output) (after', output) := fun output =>
    ⟨hafter, hleft, hright, rfl⟩
  rw [h.output]
  cases failure' with
  | none => exact ⟨rfl, habreast _⟩
  | some e => exact ⟨rfl, habreast _⟩

/-- Every action prints the same for both, and fails alike. -/
theorem carryOut_matched (h : Abreast rules state state') {around around' : Surroundings}
    (hinput : around'.input = around.input) (hstandard : around'.standardInput = around.standardInput)
    (action : Action) : Matched (Abreast rules) (carryOut around action) (carryOut around' action) state state' := by
  cases action with
  | put index source => exact put_matched h hinput hstandard index source
  | get index =>
    refine .ofExcept_bind h fun id _ => .bind (inSession_matched h (Session.read_matched h.alike id) ?_ ?_) fun _ _ h => ?_
    · exact inService_of_answering (h.left.step (.request (.read id)))
    · exact inService_of_answering (h.right.step (.request (.read id)))
    · exact printBytes_matched h _
  | delete index =>
    refine .ofExcept_bind h fun id _ =>
      inSession_matched h (Session.delete_matched h.alike h.left.anchored id) ?_ ?_
    · exact inService_of_answering (h.left.step (.request (.delete id)))
    · exact inService_of_answering (h.right.step (.request (.delete id)))
  | stats =>
    refine .get_bind ?_
    dsimp only
    rw [h.alike.header, h.alike.pageSize, h.alike.counters]
    refine .bind (printBytes_matched h _) fun _ _ h => .bind (printBytes_matched h _) fun _ _ h => ?_
    exact printBytes_matched h _
  | scan => exact scan_matched h
  | recover =>
    refine .bind (inSession_matched h (Session.recover_matched h.alike) ?_ ?_) fun _ _ h => printBytes_matched h _
    · exact inService_of_answering (h.left.step .recover)
    · exact inService_of_answering (h.right.step .recover)

/-! ### One call and many -/

/-- The call is one on this file, with these options; the size of its cache is its own. -/
structure Call.Joins (call : Call) (path : String) (pageSize : Nat) (strategy : Strategy) : Prop where
  file : call.arguments.file = path
  pageSize : call.arguments.pageSize = pageSize
  strategy : call.arguments.strategy = strategy
  frames : 1 ≤ call.arguments.frames

def Strategy.sessionRules (strategy : Strategy) (pageSize : Nat) : Rules :=
  { policy := strategy.policy, maxHops := Options.default.maxHops, pageSize }

private theorem finish_of_closed {around : Surroundings} {action : Action} {session after closed : Session CachedFile}
    {result : Except Failure Unit} {output : ByteArray}
    (hcarry : carryOut around action (session, ByteArray.empty) = (result, after, output))
    (hclose : Session.close after = (.ok (), closed)) :
    finish around action session =
      { output, failure := failure? result, file := some closed.storage.onDisk } := by
  unfold finish
  rw [hcarry]
  dsimp only
  rw [hclose]
  cases result <;> rfl

variable {path : String} {entry : Entry} {session : Session CachedFile} {pageSize : Nat} {strategy : Strategy}

/-- A call of the program on the file of a session answers as the session would, and leaves the file to go on from. -/
private theorem runOn_resumes {call : Call} (hcall : call.Joins path pageSize strategy)
    (hpageSize : checkPageSize pageSize = .ok ()) (hrules : session.rules = strategy.sessionRules pageSize)
    (hservice : session.InService) (hresumes : session.Resumes path entry) :
    (call.runOn entry).1 = (call.within session).1 ∧ (call.within session).2.rules = session.rules ∧
      (call.within session).2.InService ∧ (call.within session).2.Resumes path (call.runOn entry).2 := by
  have hpolicy : session.policy = strategy.policy := congrArg Rules.policy hrules
  have hmaxHops : session.maxHops = Options.default.maxHops := congrArg Rules.maxHops hrules
  have hpages : session.pageSize = pageSize := congrArg Rules.pageSize hrules
  let options : Options :=
    { Options.default with pageSize := call.arguments.pageSize, frames := call.arguments.frames }
  obtain ⟨session', hopen, -, hservice', halike⟩ :=
    hresumes options (hcall.pageSize.trans hpages.symm) hmaxHops.symm hcall.frames
  have habreast : Abreast session.rules (session, ByteArray.empty) (session', ByteArray.empty) :=
    ⟨halike, hservice, hservice', rfl⟩
  -- the command is carried out in both sessions, which stay alike
  obtain ⟨hresult, hafter⟩ : Matched (Abreast session.rules) (carryOut (call.surroundings .missing) _)
      (carryOut (call.surroundings entry) _) _ _ := carryOut_matched habreast rfl rfl call.arguments.action
  have hwithin : call.within session = ((
      (carryOut (call.surroundings .missing) call.arguments.action (session, ByteArray.empty)).2.2,
      failure? (carryOut (call.surroundings .missing) call.arguments.action (session, ByteArray.empty)).1),
      (carryOut (call.surroundings .missing) call.arguments.action (session, ByteArray.empty)).2.1) := rfl
  rw [hwithin]
  rcases hrun : carryOut (call.surroundings .missing) call.arguments.action (session, ByteArray.empty) with
    ⟨result, after, output⟩
  rcases hrun' : carryOut (call.surroundings entry) call.arguments.action (session', ByteArray.empty) with
    ⟨result', after', output'⟩
  rw [hrun, hrun'] at hresult hafter
  obtain rfl : result' = result := hresult
  obtain rfl : output' = output := hafter.output
  have hafterPages : after'.pageSize = session.pageSize := congrArg Rules.pageSize hafter.alike.right
  have hpageSize' : checkPageSize after'.pageSize = .ok () := by
    rw [hafterPages, hpages]
    exact hpageSize
  obtain ⟨closed, hclose, hresumes'⟩ := Session.close_resumes path hafter.right hpageSize'
  have houtcome : run call.arguments (call.surroundings entry) =
      { output := output', failure := failure? result', file := some closed.storage.onDisk } := by
    have hopen' : Session.openFile call.arguments.file entry call.arguments.strategy.policy options = .ok session' := by
      rw [hcall.file, hcall.strategy, ← hpolicy]
      exact hopen
    unfold run
    dsimp only
    rw [show (call.surroundings entry).entry = entry from rfl, hopen']
    exact finish_of_closed hrun' hclose
  unfold Call.runOn
  rw [houtcome]
  exact ⟨rfl, hafter.alike.left, hafter.left, hresumes'.of_alike hafter.alike⟩

/-- Calls one after the other. -/
private theorem runOn_run {calls : List Call} (hcalls : ∀ call ∈ calls, call.Joins path pageSize strategy)
    (hpageSize : checkPageSize pageSize = .ok ()) (hrules : session.rules = strategy.sessionRules pageSize)
    (hservice : session.InService) (hresumes : session.Resumes path entry) :
    (runAll Call.runOn calls entry).1 = (runAll Call.within calls session).1 := by
  induction calls generalizing entry session with
  | nil => rfl
  | cons call rest ih =>
    obtain ⟨hresult, hrules', hservice', hresumes'⟩ :=
      runOn_resumes (hcalls call List.mem_cons_self) hpageSize hrules hservice hresumes
    have hrest := ih (fun other hother => hcalls other (List.mem_cons_of_mem _ hother)) (hrules'.trans hrules)
      hservice' hresumes'
    rw [runAll_cons, runAll_cons]
    exact congrArg₂ List.cons hresult hrest

end Command

open Session Command in
/-- On a file that is not there yet, every run of tasks answers the same however it is cut into sessions, with the same
counters after each task, and every session but the first finds that the one before closed the file.  So calls of the
program answer as the same actions in one session.  The sizes of the caches do not matter. -/
theorem session_cuts_are_invisible (path : String) {pageSize : Nat} (hpageSize : checkPageSize pageSize = .ok ()) :
    (∀ (policy : CapacityPolicy) (options options' : Options), options.pageSize = pageSize →
      options'.pageSize = pageSize → options'.maxHops = options.maxHops → 1 ≤ options.frames → 1 ≤ options'.frames →
      ∀ steps : List CutStep, (∀ frames recover, .cut frames recover ∈ steps → 1 ≤ frames) →
        ∃ session session', openFile path .missing policy options = .ok session ∧
          openFile path .missing policy options' = .ok session' ∧
          (runAll (takeStep path) steps session').1.filterMap Report.answered? =
            (runAll answer (steps.filterMap CutStep.task?) session).1 ∧
          (∀ result, .reopened result ∈ (runAll (takeStep path) steps session').1 → result = .ok true) ∧
          (runAll (takeStep path) steps session').2.counters =
            (runAll answer (steps.filterMap CutStep.task?) session).2.counters) ∧
    ∀ (strategy : Strategy) (frames : Nat), 1 ≤ frames →
      ∀ calls : List Call, (∀ call ∈ calls, call.Joins path pageSize strategy) →
        ∃ session, openFile path .missing strategy.policy { Options.default with pageSize, frames } = .ok session ∧
          (runAll Call.runOn calls .missing).1 = (runAll Call.within calls session).1 := by
  constructor
  · rintro policy options options' rfl hpages' hmaxHops hframes hframes' steps hsteps
    obtain ⟨session, hopen, hservice, hrules, hresumes⟩ := openFile_resumes path policy hpageSize hframes
    have hpolicy : session.policy = policy := congrArg Rules.policy hrules
    have hhops : session.maxHops = options.maxHops := congrArg Rules.maxHops hrules
    have hpages : session.pageSize = options.pageSize := congrArg Rules.pageSize hrules
    obtain ⟨session', hopen', -, hservice', halike⟩ :=
      hresumes options' (hpages'.trans hpages.symm) (hmaxHops.trans hhops.symm) hframes'
    rw [hpolicy] at hopen'
    rw [← hpages] at hpageSize
    obtain ⟨hanswers, hcuts, hlast⟩ :=
      Parallel.run path ⟨halike, hservice, hservice'⟩ hpageSize hsteps
    exact ⟨session, session', hopen, hopen', hanswers, hcuts, hlast.alike.counters⟩
  · intro strategy frames hframes calls hcalls
    let options : Options := { Options.default with pageSize, frames }
    have hpageSize' : checkPageSize options.pageSize = .ok () := hpageSize
    obtain ⟨session, hopen, hservice, hrules, hresumes⟩ := openFile_resumes path strategy.policy hpageSize' hframes
    exact ⟨session, hopen, runOn_run hcalls hpageSize hrules hservice hresumes⟩

/-- A call that stores a record and one that reads it, which is the eighth unit of eight bytes. -/
private def putAndGet : List Command.Call :=
  let call (frames : Nat) (action : Command.Action) : Command.Call :=
    { arguments := { file := "store", pageSize := 256, frames, strategy := .exact, action }
      input := none
      standardInput := ⟨#[7]⟩ }
  [call 1 (.put none (some .standardInput)), call 3 (.get 8)]

open Session Command in
theorem calls_answer_as_one_session :
    (∃ session session', openFile "store" .missing .exactDefault { Options.default with pageSize := 256 } = .ok session ∧
      openFile "store" .missing .exactDefault { Options.default with pageSize := 256, frames := 1 } = .ok session' ∧
      (runAll (takeStep "store") [.task (.request (.insert ⟨#[7]⟩)), .cut 2 true, .task .count] session').1.filterMap
          Report.answered? = (runAll answer [.request (.insert ⟨#[7]⟩), .count] session).1) ∧
    (runAll Call.runOn putAndGet .missing).1.map Prod.fst = [⟨#[56, 10]⟩, ⟨#[7]⟩] := by
  obtain ⟨hcut, hcalls⟩ := session_cuts_are_invisible "store" (show checkPageSize 256 = .ok () by decide)
  constructor
  · have hframes : ∀ frames recover, .cut frames recover ∈
        [CutStep.task (.request (.insert ⟨#[7]⟩)), .cut 2 true, .task .count] → 1 ≤ frames := by
      intro frames recover hmem
      simp only [List.mem_cons, reduceCtorEq, CutStep.cut.injEq, List.not_mem_nil, or_false, false_or] at hmem
      omega
    obtain ⟨session, session', hopen, hopen', hanswers, -, -⟩ := hcut .exactDefault
      { Options.default with pageSize := 256 } { Options.default with pageSize := 256, frames := 1 } rfl rfl rfl
      (by decide) (by decide) _ hframes
    exact ⟨session, session', hopen, hopen', hanswers⟩
  · have hjoins : ∀ call ∈ putAndGet, call.Joins "store" 256 .exact := by
      intro call hcall
      rcases List.mem_cons.1 hcall with rfl | hcall
      · exact ⟨rfl, rfl, rfl, by decide⟩
      · obtain rfl := List.mem_singleton.1 hcall
        exact ⟨rfl, rfl, rfl, by decide⟩
    have hrun : (openFile "store" .missing .exactDefault { Options.default with pageSize := 256, frames := 2 }).toOption.map
        (fun session => (runAll Call.within putAndGet session).1.map Prod.fst) =
          some [⟨#[56, 10]⟩, ⟨#[7]⟩] := by
      decide +kernel
    obtain ⟨session, hopen, hanswers⟩ := hcalls .exact 2 (by decide) putAndGet hjoins
    rw [hanswers]
    change openFile "store" .missing .exactDefault { Options.default with pageSize := 256, frames := 2 } = _ at hopen
    rw [hopen] at hrun
    exact Option.some.inj hrun

end RecordStore
