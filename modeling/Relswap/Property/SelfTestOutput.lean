import Relswap.Install.SelfTestReaders
import Relswap.Sample.World

/-!
# The output that a self-test searches

In every interleaving of the readers with the polling loop, a successful
self-test has searched everything the child wrote, within the budget, and what
is reserved never exceeds the budget.
-/

namespace Relswap

open Durable Checked

/-! ## Accounting for one stream -/

variable {stream : OutputStream} {total unread unread' collected : Bytes}
variable {phase phase' : ReaderPhase} {queue : List SelfTestOutput} {live room : Prop}
variable {size size' : Nat} {reader reader' : Reader}

/-- What a reader still has to deliver once all its messages were received. -/
def Remaining (total collected unread : Bytes) : ReaderPhase → Prop
  | .reading => total = collected ++ unread
  | .loading chunk => total = collected ++ chunk ++ unread
  | .reserving chunk _ => total = collected ++ chunk ++ unread
  | .sending chunk => total = collected ++ chunk ++ unread
  | .exceeding => True
  | .finishing (.ok ()) => total = collected
  | .finishing (.error _) => True
  | .finished => total = collected

/-- A stream is what was collected of it, what is on its way, and what is not read yet,
unless a message on the way says that the reader gave up. The last message of a finished
reader says that it is done. -/
def Accounts (stream : OutputStream) (total unread : Bytes) (phase : ReaderPhase) :
    Bytes → List SelfTestOutput → Prop
  | collected, [] => Remaining total collected unread phase
  | collected, .data tag chunk :: rest =>
    tag = stream ∧ (phase = .finished → rest ≠ []) ∧
      Accounts stream total unread phase (collected ++ chunk) rest
  | collected, .done (.ok ()) :: rest => rest = [] ∧ phase = .finished ∧ total = collected
  | _, .done (.error _) :: _ => True
  | _, .limitExceeded :: _ => True

/-- A step of the reader carries what remains over to its new messages. -/
theorem Accounts.advance {extra : List SelfTestOutput} (running : phase ≠ .finished)
    (last : phase' = .finished → extra ≠ [])
    (next : ∀ collected, Remaining total collected unread phase →
      Accounts stream total unread' phase' collected extra)
    (h : Accounts stream total unread phase collected queue) :
    Accounts stream total unread' phase' collected (queue ++ extra) := by
  induction queue generalizing collected with
  | nil => exact next collected h
  | cons message rest ih =>
    match message with
    | .data tag chunk =>
      refine ⟨h.1, fun ends => ?_, ih h.2.2⟩
      exact List.append_ne_nil_of_right_ne_nil rest (last ends)
    | .done (.ok ()) => exact absurd h.2.1 running
    | .done (.error _) => trivial
    | .limitExceeded => trivial

theorem Accounts.stay (running : phase ≠ .finished) (running' : phase' ≠ .finished)
    (next : ∀ collected, Remaining total collected unread phase →
      Remaining total collected unread' phase')
    (h : Accounts stream total unread phase collected queue) :
    Accounts stream total unread' phase' collected queue := by
  have advanced : Accounts stream total unread' phase' collected (queue ++ []) :=
    h.advance running (fun ends => absurd ends running') next
  rwa [List.append_nil] at advanced

/-- The bytes reserved for messages on the way. -/
def SelfTestOutput.held : SelfTestOutput → Nat
  | .data _ chunk => chunk.length
  | .done _ => 0
  | .limitExceeded => 0

def ReaderPhase.held : ReaderPhase → Nat
  | .sending chunk => chunk.length
  | _ => 0

def Reader.held (reader : Reader) : Nat :=
  (reader.queue.map SelfTestOutput.held).sum + reader.phase.held

/-- A reader whose last message was received. -/
def Reader.Gone (reader : Reader) : Prop := reader.phase = .finished ∧ reader.queue = []

def ReaderPhase.isFinished : ReaderPhase → Bool
  | .finished => true
  | _ => false

theorem Reader.gone_iff (reader : Reader) :
    (reader.phase.isFinished && reader.queue.isEmpty) = true ↔ reader.Gone := by
  rw [Bool.and_eq_true, List.isEmpty_iff]
  rw [Gone]
  cases reader.phase <;> simp [ReaderPhase.isFinished]

instance (reader : Reader) : Decidable reader.Gone := decidable_of_iff _ reader.gone_iff

theorem reserveTotal_eq_some {current read total : Nat} (h : reserveTotal current read = some total) :
    total = current + read ∧ total ≤ selfTestOutputLimit := by
  obtain ⟨added, within⟩ := Option.filter_eq_some_iff.mp h
  exact ⟨(checkedAdd_eq_some.mp added).2.symm, of_decide_eq_true within⟩

theorem Reader.not_gone {reader : Reader} (running : reader.phase ≠ .finished) : ¬ reader.Gone :=
  fun gone => running gone.1

theorem Reader.not_gone_append {unread : Bytes} {phase : ReaderPhase}
    (queue : List SelfTestOutput) (message : SelfTestOutput) :
    ¬ Reader.Gone ⟨unread, phase, queue ++ [message]⟩ := by
  intro gone
  exact absurd gone.2 (by simp)

/-- A reader that is gone has handed over its whole stream. -/
theorem Accounts.gone (h : Accounts stream total reader.unread reader.phase collected reader.queue)
    (gone : reader.Gone) : total = collected := by
  rw [gone.1, gone.2] at h
  exact h

/-- What a step of a reader does, while the loop is still receiving. -/
theorem ReaderStep.accounts (step : ReaderStep stream live room (size, reader) (size', reader'))
    (isLive : live)
    (h : Accounts stream total reader.unread reader.phase collected reader.queue) :
    Accounts stream total reader'.unread reader'.phase collected reader'.queue ∧
      size' + reader.held = size + reader'.held ∧ ¬ reader.Gone ∧ ¬ reader'.Gone := by
  cases step with
  | read some bounded =>
    refine ⟨h.stay (by simp) (by simp) fun collected rest => ?_, rfl, Reader.not_gone (by simp),
      Reader.not_gone (by simp)⟩
    exact rest.trans (List.append_assoc _ _ _).symm
  | endOfStream =>
    refine ⟨h.stay (by simp) (by simp) fun collected rest => ?_, rfl, Reader.not_gone (by simp),
      Reader.not_gone (by simp)⟩
    exact rest.trans (List.append_nil _)
  | readError error =>
    exact ⟨h.stay (by simp) (by simp) fun collected rest => trivial, rfl, Reader.not_gone (by simp),
      Reader.not_gone (by simp)⟩
  | load current earlier =>
    refine ⟨h.stay (by simp) (by simp) fun collected rest => ?_, rfl, Reader.not_gone (by simp),
      Reader.not_gone (by simp)⟩
    exact rest
  | refuse exceeds =>
    exact ⟨h.stay (by simp) (by simp) fun collected rest => trivial, rfl, Reader.not_gone (by simp),
      Reader.not_gone (by simp)⟩
  | exchange within =>
    refine ⟨h.stay (by simp) (by simp) fun collected rest => ?_, ?_, Reader.not_gone (by simp),
      Reader.not_gone (by simp)⟩
    · exact rest
    · simp only [Reader.held, ReaderPhase.held, (reserveTotal_eq_some within).1]
      omega
  | retry within actual earlier =>
    refine ⟨h.stay (by simp) (by simp) fun collected rest => ?_, rfl, Reader.not_gone (by simp),
      Reader.not_gone (by simp)⟩
    exact rest
  | send _ free =>
    refine ⟨h.advance (by simp) (by simp) fun collected rest => ?_, ?_, Reader.not_gone (by simp),
      Reader.not_gone (by simp)⟩
    · exact ⟨rfl, by simp, rest⟩
    · simp [Reader.held, ReaderPhase.held, SelfTestOutput.held]
  | sendClosed closed => exact absurd isLive closed
  | exceed _ free =>
    refine ⟨h.advance (by simp) (by simp) fun collected rest => trivial, ?_, Reader.not_gone (by simp),
      Reader.not_gone (by simp)⟩
    simp [Reader.held, ReaderPhase.held, SelfTestOutput.held]
  | exceedClosed closed => exact absurd isLive closed
  | @finish _ _ _ result _ free =>
    refine ⟨h.advance (by simp) (by simp) fun collected rest => ?_, ?_, Reader.not_gone (by simp),
      Reader.not_gone_append _ _⟩
    · match result with
      | .ok () => exact ⟨rfl, rfl, rest⟩
      | .error error => trivial
    · simp [Reader.held, ReaderPhase.held, SelfTestOutput.held]
  | finishClosed closed => exact absurd isLive closed

/-- The budget is never exceeded. -/
theorem ReaderStep.limit (step : ReaderStep stream live room (size, reader) (size', reader'))
    (h : size ≤ selfTestOutputLimit) : size' ≤ selfTestOutputLimit := by
  cases step with
  | exchange within => exact (reserveTotal_eq_some within).2
  | _ => exact h

/-! ## The system -/

variable {V : Type} [SemVer V] [Crates V] {version : V} {s t : SelfTestSystem V}
variable {seen : SelfTestRun} {received : Received} {totals : OutputStream → Bytes}

namespace SelfTestSystem

/-- What was collected of a stream. -/
def collectedOf (seen : SelfTestRun) : OutputStream → Bytes
  | .stdout => seen.stdout
  | .stderr => seen.stderr

/-- How many readers are gone. -/
def goneCount (s : SelfTestSystem V) : Nat :=
  (if (s.readers .stdout).Gone then 1 else 0) + if (s.readers .stderr).Gone then 1 else 0

/-- While the loop collects, every stream is accounted for and the budget is what was
collected and what is on its way. -/
structure Collecting (totals : OutputStream → Bytes) (s : SelfTestSystem V) (seen : SelfTestRun) :
    Prop where
  accounts : ∀ stream, Accounts stream (totals stream) (s.readers stream).unread
    (s.readers stream).phase (collectedOf seen stream) (s.readers stream).queue
  budget : s.outputSize = seen.stdout.length + seen.stderr.length +
    ((s.readers .stdout).held + (s.readers .stderr).held)
  done : seen.readersDone = s.goneCount
  status : ∀ success, seen.status = some success → s.child = some success

/-- A verdict that rests on everything the child wrote. -/
structure Searched (totals : OutputStream → Bytes) (s : SelfTestSystem V) (seen : SelfTestRun) :
    Prop where
  stdout : seen.stdout = totals .stdout
  stderr : seen.stderr = totals .stderr
  within : seen.stdout.length + seen.stderr.length ≤ selfTestOutputLimit
  exited : s.child = some true

/-- What holds in every state of a run. -/
structure Inv (totals : OutputStream → Bytes) (s : SelfTestSystem V) : Prop where
  limit : s.outputSize ≤ selfTestOutputLimit
  collecting : ∀ seen, s.loop = .collecting seen → Collecting totals s seen
  returned : ∀ seen, s.loop = .returned seen (.ok ()) → Searched totals s seen

omit [SemVer V] [Crates V] in
theorem inv_start (stdout stderr : Bytes) :
    Inv (fun stream => match stream with | .stdout => stdout | .stderr => stderr)
      (start stdout stderr : SelfTestSystem V) := by
  refine ⟨Nat.zero_le _, ?_, ?_⟩
  · intro seen same
    obtain rfl : SelfTestRun.start = seen := by
      cases same
      rfl
    refine ⟨fun stream => ?_, rfl, ?_, ?_⟩
    · cases stream with
      | stdout => rfl
      | stderr => rfl
    · rw [goneCount]
      rw [if_neg (Reader.not_gone (by simp [start])), if_neg (Reader.not_gone (by simp [start]))]
      rfl
    · intro success same
      cases same
  · intro seen same
    cases same

omit [SemVer V] [Crates V] in
@[simp] theorem setReader_self (s : SelfTestSystem V) (stream : OutputStream) (reader : Reader) :
    (s.setReader stream reader).readers stream = reader := Function.update_self ..

omit [SemVer V] [Crates V] in
theorem setReader_other (s : SelfTestSystem V) {stream other : OutputStream} (reader : Reader)
    (different : other ≠ stream) : (s.setReader stream reader).readers other = s.readers other :=
  Function.update_of_ne different ..

omit [SemVer V] [Crates V] in
/-- The sums over both readers change where the reader of `stream` does. -/
theorem setReader_sums (s : SelfTestSystem V) (stream : OutputStream) (reader : Reader) :
    ((s.setReader stream reader).readers .stdout).held +
        ((s.setReader stream reader).readers .stderr).held + (s.readers stream).held =
      (s.readers .stdout).held + (s.readers .stderr).held + reader.held ∧
    (s.setReader stream reader).goneCount + (if (s.readers stream).Gone then 1 else 0) =
      s.goneCount + if reader.Gone then 1 else 0 := by
  simp only [goneCount]
  cases stream with
  | stdout =>
    rw [setReader_self, setReader_other s reader (by decide)]
    omega
  | stderr =>
    rw [setReader_self, setReader_other s reader (by decide)]
    omega

/-! ### Steps of the readers and of the child -/

omit [SemVer V] [Crates V] in
theorem Collecting.reads (h : Collecting totals s seen) (isLive : s.Live) {size : Nat}
    {reader : Reader}
    (step : ReaderStep stream s.Live s.Room (s.outputSize, s.readers stream) (size, reader)) :
    Collecting totals ((s.setReader stream reader).setSize size) seen := by
  obtain ⟨accounts, balance, notGone, notGone'⟩ := step.accounts isLive (h.accounts stream)
  obtain ⟨held, gone⟩ := s.setReader_sums stream reader
  rw [if_neg notGone, if_neg notGone'] at gone
  refine ⟨fun other => ?_, ?_, h.done.trans gone.symm, h.status⟩
  · by_cases same : other = stream
    · subst same
      dsimp only [setSize, setLoop]
      rw [setReader_self]
      exact accounts
    · dsimp only [setSize, setLoop]
      rw [setReader_other s reader same]
      exact h.accounts other
  · have budget := h.budget
    dsimp only [setSize, setLoop]
    omega

omit [SemVer V] [Crates V] in
theorem Inv.reads (h : Inv totals s) {size : Nat} {reader : Reader}
    (step : ReaderStep stream s.Live s.Room (s.outputSize, s.readers stream) (size, reader)) :
    Inv totals ((s.setReader stream reader).setSize size) := by
  refine ⟨step.limit h.limit, fun seen collecting => ?_, fun seen verdict => ?_⟩
  · exact (h.collecting seen collecting).reads ⟨seen, collecting⟩ step
  · obtain ⟨stdout, stderr, within, exited⟩ := h.returned seen verdict
    exact ⟨stdout, stderr, within, exited⟩

omit [SemVer V] [Crates V] in
theorem Inv.exit (h : Inv totals s) {success : Bool} (running : s.child = none) :
    Inv totals (s.setChild (some success)) := by
  refine ⟨h.limit, fun seen collecting => ?_, fun seen verdict => ?_⟩
  · have known := h.collecting seen collecting
    refine ⟨known.accounts, known.budget, known.done, fun observed same => ?_⟩
    have exited := known.status observed same
    rw [running] at exited
    cases exited
  · have exited := (h.returned seen verdict).exited
    rw [running] at exited
    cases exited

/-! ### A pass of the loop -/

/-- The status that a pass goes on with was known or is observed now. -/
theorem status_of_pass {ε : Type} {pass : Poll} {describe : String → ε} {next : SelfTestRun}
    {rest : Option Bool → Except ε SelfTestRun}
    (polled : (match seen.status with
      | some status => Except.ok (some status) >>= rest
      | none => pass.status.mapError describe >>= rest) = .ok next) :
    ∃ status, (∀ success, status = some success →
      seen.status = some success ∨ pass.status = .ok (some success)) ∧ rest status = .ok next := by
  cases before : seen.status with
  | some earlier =>
    rw [before] at polled
    refine ⟨some earlier, fun success same => Or.inl same, polled⟩
  | none =>
    rw [before] at polled
    obtain ⟨status, known, polled⟩ := bind_eq_ok.mp polled
    refine ⟨status, fun success same => Or.inr ?_, polled⟩
    rw [mapError_eq_ok.mp known, same]

omit [SemVer V] [Crates V] in
/-- What the loop holds after a pass that goes on. -/
theorem pollSelfTest_eq_ok {pass : Poll} {next : SelfTestRun}
    (polled : (pollSelfTest seen pass : Except (InstallError V) SelfTestRun) = .ok next) :
    (∀ success, next.status = some success →
      seen.status = some success ∨ pass.status = .ok (some success)) ∧
    match pass.received with
    | .data stream bytes => collectedOf next stream = collectedOf seen stream ++ bytes ∧
        (∀ other, other ≠ stream → collectedOf next other = collectedOf seen other) ∧
        next.readersDone = seen.readersDone
    | .done result => result = .ok () ∧ collectedOf next = collectedOf seen ∧
        next.readersDone = seen.readersDone + 1
    | .limitExceeded => False
    | .timeout => collectedOf next = collectedOf seen ∧ next.readersDone = seen.readersDone
    | .disconnected => collectedOf next = collectedOf seen ∧ next.readersDone = seen.readersDone := by
  unfold pollSelfTest at polled
  dsimp only at polled
  obtain ⟨status, observed, polled⟩ := status_of_pass polled
  obtain ⟨_, _, polled⟩ := bind_eq_ok.mp polled
  cases received : pass.received with
  | data stream bytes =>
    rw [received] at polled
    cases stream with
    | stdout =>
      obtain rfl := pure_eq_ok.mp polled
      refine ⟨observed, rfl, ?_, rfl⟩
      intro other different
      cases other with
      | stdout => exact absurd rfl different
      | stderr => rfl
    | stderr =>
      obtain rfl := pure_eq_ok.mp polled
      refine ⟨observed, rfl, ?_, rfl⟩
      intro other different
      cases other with
      | stdout => rfl
      | stderr => exact absurd rfl different
  | done result =>
    rw [received] at polled
    match result with
    | .ok () =>
      obtain rfl := pure_eq_ok.mp polled
      exact ⟨observed, rfl, funext fun stream => by cases stream <;> rfl, rfl⟩
    | .error error => cases polled
  | limitExceeded =>
    rw [received] at polled
    cases polled
  | timeout =>
    rw [received] at polled
    obtain rfl := pure_eq_ok.mp polled
    exact ⟨observed, funext fun stream => by cases stream <;> rfl, rfl⟩
  | disconnected =>
    rw [received] at polled
    obtain ⟨_, _, polled⟩ := bind_eq_ok.mp polled
    obtain rfl := pure_eq_ok.mp polled
    exact ⟨observed, funext fun stream => by cases stream <;> rfl, rfl⟩

theorem collected_length (seen : SelfTestRun) :
    seen.stdout.length + seen.stderr.length =
      (collectedOf seen .stdout).length + (collectedOf seen .stderr).length := rfl

omit [SemVer V] [Crates V] in
/-- The accounts after a message was received. -/
theorem Collecting.receive (h : Collecting totals s seen) {next : SelfTestRun}
    {message : SelfTestOutput} {rest : List SelfTestOutput}
    (first : (s.readers stream).queue = message :: rest) {pass : Poll}
    (received : pass.received = message.received)
    (waited : ∀ success, pass.status = .ok (some success) → s.child = some success)
    (polled : (pollSelfTest seen pass : Except (InstallError V) SelfTestRun) = .ok next)
    (loop : PollingLoop V) :
    Collecting totals
      ((s.setReader stream ((s.readers stream).waiting rest)).setLoop loop) next := by
  obtain ⟨observed, effect⟩ := pollSelfTest_eq_ok polled
  rw [received] at effect
  have accounts := h.accounts stream
  rw [first] at accounts
  have status : ∀ success, next.status = some success → s.child = some success := by
    intro success same
    exact (observed success same).elim (h.status success) (waited success)
  have others : ∀ other, other ≠ stream → collectedOf next other = collectedOf seen other →
      Accounts other (totals other)
        ((s.setReader stream ((s.readers stream).waiting rest)).readers other).unread
        ((s.setReader stream ((s.readers stream).waiting rest)).readers other).phase
        (collectedOf next other)
        ((s.setReader stream ((s.readers stream).waiting rest)).readers other).queue := by
    intro other different same
    rw [setReader_other s _ different, same]
    exact h.accounts other
  have budget := h.budget
  have before : ¬ (s.readers stream).Gone := by
    intro gone
    rw [gone.2] at first
    cases first
  obtain ⟨held, gone⟩ := s.setReader_sums stream ((s.readers stream).waiting rest)
  have holds : (s.readers stream).held =
      message.held + ((s.readers stream).waiting rest).held := by
    simp only [Reader.held, Reader.waiting]
    rw [first, List.map_cons, List.sum_cons, Nat.add_assoc]
  rw [if_neg before] at gone
  match message with
  | .data tag chunk =>
    obtain ⟨rfl, last, accounts⟩ := accounts
    obtain ⟨appended, same, done⟩ := effect
    have notGone : ¬ ((s.readers tag).waiting rest).Gone :=
      fun gone => last gone.1 gone.2
    rw [if_neg notGone] at gone
    refine ⟨fun other => ?_, ?_, (done.trans h.done).trans gone.symm, status⟩
    · by_cases here : other = tag
      · subst here
        dsimp only [setSize, setLoop]
        rw [setReader_self, appended]
        exact accounts
      · exact others other here (same other here)
    · rw [collected_length] at budget ⊢
      have longer := congrArg List.length appended
      rw [List.length_append] at longer
      have size : (SelfTestOutput.data tag chunk).held = chunk.length := rfl
      rw [size] at holds
      change s.outputSize = _ + (((s.setReader tag ((s.readers tag).waiting rest)).readers
        .stdout).held + ((s.setReader tag ((s.readers tag).waiting rest)).readers .stderr).held)
      cases tag with
      | stdout =>
        have unchanged := congrArg List.length (same .stderr (by decide))
        omega
      | stderr =>
        have unchanged := congrArg List.length (same .stdout (by decide))
        omega
  | .done result =>
    obtain ⟨rfl, same, done⟩ := effect
    obtain ⟨rfl, finished, delivered⟩ := accounts
    rw [if_pos ⟨finished, rfl⟩] at gone
    refine ⟨fun other => ?_, ?_, ?_, status⟩
    · by_cases here : other = stream
      · subst here
        dsimp only [setSize, setLoop]
        rw [setReader_self, same]
        change Remaining (totals other) (collectedOf seen other) _ (s.readers other).phase
        rw [finished]
        exact delivered
      · exact others other here (congrFun same other)
    · rw [collected_length, same, ← collected_length]
      have size : (SelfTestOutput.done (.ok ())).held = 0 := rfl
      rw [size] at holds
      change s.outputSize = _
      dsimp only [setSize, setLoop]
      omega
    · exact (done.trans (congrArg (· + 1) h.done)).trans gone.symm
  | .limitExceeded => exact effect.elim

omit [SemVer V] [Crates V] in
theorem Receives.eq (receives : s.Receives received t) :
    t.outputSize = s.outputSize ∧ t.child = s.child := by
  cases receives with
  | message stream first => exact ⟨rfl, rfl⟩
  | timeout => exact ⟨rfl, rfl⟩
  | disconnected gone => exact ⟨rfl, rfl⟩

omit [SemVer V] [Crates V] in
theorem Collecting.poll (h : Collecting totals s seen) (pass : Poll) {next : SelfTestRun}
    (waited : ∀ success, pass.status = .ok (some success) → s.child = some success)
    (receives : s.Receives pass.received t)
    (polled : (pollSelfTest seen pass : Except (InstallError V) SelfTestRun) = .ok next)
    (loop : PollingLoop V) : Collecting totals (t.setLoop loop) next := by
  generalize received : pass.received = message at receives
  cases receives with
  | message stream first => exact h.receive first received waited polled loop
  | timeout =>
    obtain ⟨observed, effect⟩ := pollSelfTest_eq_ok polled
    rw [received] at effect
    obtain ⟨same, done⟩ := effect
    refine ⟨fun stream => ?_, ?_, done.trans h.done, fun success now => ?_⟩
    · rw [same]
      exact h.accounts stream
    · rw [collected_length, same, ← collected_length]
      exact h.budget
    · exact (observed success now).elim (h.status success) (waited success)
  | disconnected gone =>
    obtain ⟨observed, effect⟩ := pollSelfTest_eq_ok polled
    rw [received] at effect
    obtain ⟨same, done⟩ := effect
    refine ⟨fun stream => ?_, ?_, done.trans h.done, fun success now => ?_⟩
    · rw [same]
      exact h.accounts stream
    · rw [collected_length, same, ← collected_length]
      exact h.budget
    · exact (observed success now).elim (h.status success) (waited success)

omit [SemVer V] [Crates V] in
theorem Inv.poll (h : Inv totals s) (pass : Poll) (collecting : s.loop = .collecting seen)
    (waited : pass.status = .ok s.child ∨ ∃ error, pass.status = .error error)
    (receives : s.Receives pass.received t) :
    Inv totals (t.setLoop (afterPass seen pass)) := by
  have exited : ∀ success, pass.status = .ok (some success) → s.child = some success := by
    intro success same
    rcases waited with observed | failed
    · exact Except.ok.inj (observed.symm.trans same)
    · obtain ⟨error, failed⟩ := failed
      rw [failed] at same
      cases same
  have size := receives.eq.1
  refine ⟨?_, fun next same => ?_, fun next verdict => ?_⟩
  · change t.outputSize ≤ _
    rw [size]
    exact h.limit
  · change afterPass seen pass = _ at same
    unfold afterPass at same
    split at same
    · rename_i polled
      cases same
      exact (h.collecting seen collecting).poll pass exited receives polled _
    · cases same
  · change afterPass seen pass = _ at verdict
    unfold afterPass at verdict
    split at verdict
    · cases verdict
    · cases verdict

omit [SemVer V] [Crates V] in
theorem gone_of_two (two : 2 ≤ s.goneCount) (stream : OutputStream) : (s.readers stream).Gone := by
  unfold goneCount at two
  by_cases stdout : (s.readers .stdout).Gone
  · by_cases stderr : (s.readers .stderr).Gone
    · cases stream with
      | stdout => exact stdout
      | stderr => exact stderr
    · rw [if_pos stdout, if_neg stderr] at two
      omega
  · rw [if_neg stdout] at two
    split at two
    · omega
    · omega

omit [Crates V] in
/-- What the judgement accepts has been collected completely. -/
theorem Collecting.searched (h : Collecting totals s seen) (limit : s.outputSize ≤ selfTestOutputLimit)
    (complete : Complete seen) (accepted : judgeSelfTest version seen = .ok ())
    (loop : PollingLoop V) : Searched totals (s.setLoop loop) seen := by
  have gone := gone_of_two (h.done ▸ complete.2)
  have budget := h.budget
  have stdout := (h.accounts .stdout).gone (gone .stdout)
  have stderr := (h.accounts .stderr).gone (gone .stderr)
  obtain ⟨_, succeeded, _⟩ := bind_eq_ok.mp accepted
  exact ⟨stdout.symm, stderr.symm, by omega, h.status true (check_eq_ok.mp succeeded)⟩

omit [Crates V] in
theorem Inv.step (h : Inv totals s) (step : Step version s t) : Inv totals t := by
  cases step with
  | reader stream step => exact h.reads step
  | exit success running => exact h.exit running
  | poll pass collecting more waited receives => exact h.poll pass collecting waited receives
  | judge collecting complete =>
    refine ⟨h.limit, fun seen other => (by cases other), fun seen verdict => ?_⟩
    obtain ⟨rfl, accepted⟩ := PollingLoop.returned.inj verdict
    exact (h.collecting _ collecting).searched h.limit complete accepted _

omit [Crates V] in
theorem Inv.run (h : Inv totals s) (run : Runs version s t) : Inv totals t := by
  induction run with
  | refl => exact h
  | tail _ step ih => exact ih.step step

/-! ### The loop by itself -/

/-- The loop has gone through some passes. -/
def Polled (seen : SelfTestRun) (V : Type) : Prop :=
  ∃ passes, ∀ rest, (collectSelfTest .start (passes ++ rest) : Except (InstallError V) SelfTestRun) =
    collectSelfTest seen rest

omit [SemVer V] [Crates V] in
theorem Polled.pass (h : Polled seen V) (pass : Poll) (more : ¬ Complete seen) :
    ∃ passes, ∀ rest, (collectSelfTest .start (passes ++ rest) :
      Except (InstallError V) SelfTestRun) =
        pollSelfTest seen pass >>= fun seen => collectSelfTest seen rest := by
  obtain ⟨passes, same⟩ := h
  refine ⟨passes ++ [pass], fun rest => ?_⟩
  rw [List.append_assoc, same]
  exact if_neg more

omit [Crates V] in
/-- What the loop returns is what some passes make of it. -/
theorem Runs.passes {stdout stderr : Bytes} (run : Runs version (start stdout stderr) s) :
    (∀ seen, s.loop = .collecting seen → Polled seen V) ∧
      ∀ seen result, s.loop = .returned seen result →
        ∃ passes, runSelfTest version (.ok ()) passes = result := by
  induction run with
  | refl =>
    refine ⟨fun seen same => ?_, fun seen result same => (by cases same)⟩
    cases same
    exact ⟨[], fun rest => rfl⟩
  | tail _ step ih =>
    obtain ⟨collects, returns⟩ := ih
    cases step with
    | reader stream step => exact ⟨collects, returns⟩
    | exit success running => exact ⟨collects, returns⟩
    | @poll t seen pass collecting more waited receives =>
      obtain ⟨passes, same⟩ := (collects seen collecting).pass pass more
      refine ⟨fun next goes => ?_, fun last result verdict => ?_⟩
      · change afterPass seen pass = _ at goes
        unfold afterPass at goes
        split at goes
        · rename_i polled
          cases goes
          refine ⟨passes, fun rest => ?_⟩
          rw [same, polled, ok_bind]
        · cases goes
      · change afterPass seen pass = _ at verdict
        unfold afterPass at verdict
        split at verdict
        · cases verdict
        · rename_i polled
          cases verdict
          refine ⟨passes, ?_⟩
          have failed := same []
          rw [List.append_nil, polled, error_bind] at failed
          rw [runSelfTest, ok_bind, failed, error_bind]
    | @judge seen collecting complete =>
      refine ⟨fun next goes => (by cases goes), fun last result verdict => ?_⟩
      cases verdict
      obtain ⟨passes, same⟩ := collects seen collecting
      refine ⟨passes, ?_⟩
      have collected := same []
      rw [List.append_nil] at collected
      have finished : (collectSelfTest seen [] : Except (InstallError V) SelfTestRun) = .ok seen :=
        if_pos complete
      rw [runSelfTest, ok_bind, collected, finished, ok_bind]

end SelfTestSystem

open SelfTestSystem in
omit [Crates V] in
/-- In every state that a run of the self-test reaches, the budget is kept; a run that
returned `Ok` has searched exactly the whole of both streams, within the limit, of a child
that exited successfully; and output over the limit is never accepted. -/
theorem self_test_output_complete (version : V) (stdout stderr : Bytes)
    (run : Runs version (start stdout stderr) s) :
    s.outputSize ≤ selfTestOutputLimit ∧
      (∀ seen, s.loop = .returned seen (.ok ()) →
        seen.stdout ++ seen.stderr = stdout ++ stderr ∧
          (stdout ++ stderr).length ≤ selfTestOutputLimit ∧ s.child = some true) ∧
      (selfTestOutputLimit < (stdout ++ stderr).length →
        ∀ seen, s.loop ≠ .returned seen (.ok ())) := by
  have h := (inv_start stdout stderr).run run
  have complete : ∀ seen, s.loop = .returned seen (.ok ()) →
      seen.stdout ++ seen.stderr = stdout ++ stderr ∧
        (stdout ++ stderr).length ≤ selfTestOutputLimit ∧ s.child = some true := by
    intro seen verdict
    obtain ⟨out, err, within, exited⟩ := h.returned seen verdict
    have whole : seen.stdout ++ seen.stderr = stdout ++ stderr := by rw [out, err]
    refine ⟨whole, ?_, exited⟩
    rw [← whole, List.length_append]
    exact within
  refine ⟨h.limit, complete, fun excess seen verdict => ?_⟩
  have within := (complete seen verdict).2.1
  omega

section Sample

open Sample SelfTestSystem

/-- The text of the first release. -/
def Sample.report : Bytes := [49, 46, 48, 46, 48]

/-- A run in which the child reports its version and everything goes well. -/
theorem reported_run : ∃ s : SelfTestSystem Edition, ∃ seen,
    Runs firstRelease (start Sample.report []) s ∧ s.loop = .returned seen (.ok ()) := by
  have start : Runs firstRelease (start Sample.report []) (start Sample.report []) := .refl
  have run := start.tail (.exit true rfl)
  -- stdout: one chunk, then the end of the stream
  have run := run.tail (.reader .stdout (@ReaderStep.read _ _ _ _ Sample.report [] [] (by decide)
    (by decide)))
  have run := run.tail (.reader .stdout (.load 0 (Nat.le_refl 0)))
  have run := run.tail (.reader .stdout (@ReaderStep.exchange _ _ _ 0 5 Sample.report [] [] rfl))
  have run := run.tail (.reader .stdout (.send ⟨_, rfl⟩ (by decide)))
  have run := run.tail (.reader .stdout .endOfStream)
  have run := run.tail (.reader .stdout (.finish ⟨_, rfl⟩ (by decide)))
  -- stderr: empty
  have run := run.tail (.reader .stderr .endOfStream)
  have run := run.tail (.reader .stderr (.finish ⟨_, rfl⟩ (by decide)))
  -- the loop receives three messages
  have run := run.tail (.poll ⟨.ok (some true), false, .data .stdout Sample.report⟩ rfl (by decide)
    (Or.inl rfl) (@Receives.message Edition _ .stdout (.data .stdout Sample.report)
      [.done (.ok ())] rfl))
  have run := run.tail (.poll ⟨.ok (some true), false, .done (.ok ())⟩ rfl (by decide)
    (Or.inl rfl) (@Receives.message Edition _ .stdout (.done (.ok ())) [] rfl))
  have run := run.tail (.poll ⟨.ok (some true), false, .done (.ok ())⟩ rfl (by decide)
    (Or.inl rfl) (@Receives.message Edition _ .stderr (.done (.ok ())) [] rfl))
  have run := run.tail (.judge rfl (by decide))
  exact ⟨_, _, run, rfl⟩

theorem self_test_output_reported :
    ∃ s : SelfTestSystem Edition, ∃ seen, s.loop = .returned seen (.ok ()) ∧
      seen.stdout ++ seen.stderr = Sample.report := by
  obtain ⟨s, seen, run, verdict⟩ := reported_run
  exact ⟨s, seen, verdict, ((self_test_output_complete firstRelease Sample.report [] run).2.1 seen
    verdict).1⟩

end Sample

end Relswap
