import Relswap.Install.Installation

/-!
# The self-test of a staged payload

The manager polls the running payload: each pass of the loop observes the child,
the clock and one message of the two output readers. When the child has exited and
both readers are done, its status and its combined output decide.
-/

namespace Relswap

open Durable

def selfTestOutputLimit : Nat := 1024 * 1024

inductive OutputStream where
  | stdout
  | stderr
  deriving DecidableEq, Repr

/-- What one `recv_timeout` on the readers' channel gives. -/
inductive Received where
  | data (stream : OutputStream) (bytes : Bytes)
  | done (result : Except String Unit)
  | limitExceeded
  | timeout
  | disconnected

/-- What one pass of the loop observes. The child's status is consulted only while
it is not known; `some` tells whether the exit was a success. -/
structure Poll where
  status : Except String (Option Bool)
  expired : Bool
  received : Received

/-- What the loop has collected so far. -/
structure SelfTestRun where
  status : Option Bool
  readersDone : Nat
  stdout : Bytes
  stderr : Bytes

def SelfTestRun.start : SelfTestRun := ⟨none, 0, [], []⟩

section

variable {V : Type} [SemVer V] [Crates V]

def pollSelfTest (seen : SelfTestRun) (pass : Poll) : Except (InstallError V) SelfTestRun := do
  let status ← match seen.status with
    | some status => .ok (some status)
    | none => pass.status.mapError fun error =>
        .invalid s!"self-test status check failed: {error}"
  check (pass.expired = false) (.invalid "self-test timed out")
  match pass.received with
  | .data .stdout bytes => return { seen with status, stdout := seen.stdout ++ bytes }
  | .data .stderr bytes => return { seen with status, stderr := seen.stderr ++ bytes }
  | .done (.ok ()) => return { seen with status, readersDone := seen.readersDone + 1 }
  | .done (.error error) => .error (.invalid s!"self-test output read failed: {error}")
  | .limitExceeded =>
    .error (.invalid s!"self-test output exceeds {selfTestOutputLimit} bytes")
  | .timeout => return { seen with status }
  | .disconnected => do
    check (seen.readersDone = 2) (.invalid "self-test output readers stopped unexpectedly")
    return { seen with status }

/-- The polling loop. A run that never completes ends in a pass that finds the
timeout expired, so the passes may be taken to run out only in that way. -/
def collectSelfTest (seen : SelfTestRun) : List Poll → Except (InstallError V) SelfTestRun
  | [] =>
    if seen.status.isSome ∧ 2 ≤ seen.readersDone then .ok seen
    else .error (.invalid "self-test timed out")
  | pass :: rest =>
    if seen.status.isSome ∧ 2 ≤ seen.readersDone then .ok seen
    else do
      let seen ← pollSelfTest seen pass
      collectSelfTest seen rest

/-- The status and the combined output decide. Replacing what is not UTF-8 in the
output leaves its ASCII bytes as they are, and the text of a version is ASCII. -/
def judgeSelfTest (version : V) (run : SelfTestRun) : Except (InstallError V) Unit := do
  check (run.status = some true) (.invalid "self-test failed")
  check (encodeUtf8 (SemVer.toText version) <:+: run.stdout ++ run.stderr)
    (.invalid "self-test output mismatch")

/-- Run the configured probe of a version. `started` is the outcome of spawning,
containing and resuming the child. -/
def runSelfTest (version : V) (started : Except (InstallError V) Unit) (passes : List Poll) :
    Except (InstallError V) Unit := do
  started
  let run ← collectSelfTest .start passes
  judgeSelfTest version run

end

end Relswap
