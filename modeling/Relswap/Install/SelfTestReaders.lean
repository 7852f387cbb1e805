import Relswap.Checked.Run
import Relswap.Install.SelfTest
import Relswap.Release.Zip

/-!
# The two readers of a self-test

One thread per output stream reads chunks, reserves their size in a budget that
both share, and sends them over a bounded channel to the polling loop. The system
steps one thread at a time, in any order. Messages of one sender arrive in the
order in which they were sent, and a relaxed load may yield an earlier value.
-/

namespace Relswap

open Durable Checked

def selfTestReadChunk : Nat := 8 * 1024

/-- The capacity of the channel. -/
def selfTestChannel : Nat := 16

inductive SelfTestOutput where
  | data (stream : OutputStream) (bytes : Bytes)
  | done (result : Except String Unit)
  | limitExceeded

def SelfTestOutput.received : SelfTestOutput → Received
  | data stream bytes => .data stream bytes
  | done result => .done result
  | limitExceeded => .limitExceeded

/-- The budget after a reservation, when it stays within the limit. -/
def reserveTotal (current read : Nat) : Option Nat :=
  (checkedAdd usizeLimit current read).filter (· ≤ selfTestOutputLimit)

/-- What a reader does next. -/
inductive ReaderPhase where
  | reading
  | loading (chunk : Bytes)
  | reserving (chunk : Bytes) (current : Nat)
  | sending (chunk : Bytes)
  | exceeding
  | finishing (result : Except String Unit)
  | finished

/-- A reader, with the bytes it has not read and the messages nobody has received. -/
structure Reader where
  unread : Bytes
  phase : ReaderPhase
  queue : List SelfTestOutput

/-- The reader with other messages waiting to be received. -/
def Reader.waiting (reader : Reader) (queue : List SelfTestOutput) : Reader where
  unread := reader.unread
  phase := reader.phase
  queue := queue

/-- One step of the reader of `stream`, on the budget and its own state. `live` tells
whether the loop still holds the receiver, and `room` whether the channel has room. -/
inductive ReaderStep (stream : OutputStream) (live room : Prop) :
    Nat × Reader → Nat × Reader → Prop where
  | read {size : Nat} {chunk rest : Bytes} {queue : List SelfTestOutput} (some : chunk ≠ [])
      (bounded : chunk.length ≤ selfTestReadChunk) :
      ReaderStep stream live room (size, ⟨chunk ++ rest, .reading, queue⟩)
        (size, ⟨rest, .loading chunk, queue⟩)
  | endOfStream {size : Nat} {queue : List SelfTestOutput} :
      ReaderStep stream live room (size, ⟨[], .reading, queue⟩)
        (size, ⟨[], .finishing (.ok ()), queue⟩)
  | readError {size : Nat} {unread : Bytes} {queue : List SelfTestOutput} (error : String) :
      ReaderStep stream live room (size, ⟨unread, .reading, queue⟩)
        (size, ⟨unread, .finishing (.error error), queue⟩)
  | load {size : Nat} {chunk unread : Bytes} {queue : List SelfTestOutput} (current : Nat)
      (earlier : current ≤ size) :
      ReaderStep stream live room (size, ⟨unread, .loading chunk, queue⟩)
        (size, ⟨unread, .reserving chunk current, queue⟩)
  | refuse {size current : Nat} {chunk unread : Bytes} {queue : List SelfTestOutput}
      (exceeds : reserveTotal current chunk.length = none) :
      ReaderStep stream live room (size, ⟨unread, .reserving chunk current, queue⟩)
        (size, ⟨unread, .exceeding, queue⟩)
  | exchange {size total : Nat} {chunk unread : Bytes} {queue : List SelfTestOutput}
      (within : reserveTotal size chunk.length = some total) :
      ReaderStep stream live room (size, ⟨unread, .reserving chunk size, queue⟩)
        (total, ⟨unread, .sending chunk, queue⟩)
  | retry {size current total : Nat} {chunk unread : Bytes} {queue : List SelfTestOutput}
      (within : reserveTotal current chunk.length = some total) (actual : Nat)
      (earlier : actual ≤ size) :
      ReaderStep stream live room (size, ⟨unread, .reserving chunk current, queue⟩)
        (size, ⟨unread, .reserving chunk actual, queue⟩)
  | send {size : Nat} {chunk unread : Bytes} {queue : List SelfTestOutput} (isLive : live)
      (free : room) :
      ReaderStep stream live room (size, ⟨unread, .sending chunk, queue⟩)
        (size, ⟨unread, .reading, queue ++ [.data stream chunk]⟩)
  | sendClosed {size : Nat} {chunk unread : Bytes} {queue : List SelfTestOutput}
      (closed : ¬ live) :
      ReaderStep stream live room (size, ⟨unread, .sending chunk, queue⟩)
        (size, ⟨unread, .finishing (.ok ()), queue⟩)
  | exceed {size : Nat} {unread : Bytes} {queue : List SelfTestOutput} (isLive : live)
      (free : room) :
      ReaderStep stream live room (size, ⟨unread, .exceeding, queue⟩)
        (size, ⟨unread, .finishing (.ok ()), queue ++ [.limitExceeded]⟩)
  | exceedClosed {size : Nat} {unread : Bytes} {queue : List SelfTestOutput} (closed : ¬ live) :
      ReaderStep stream live room (size, ⟨unread, .exceeding, queue⟩)
        (size, ⟨unread, .finishing (.ok ()), queue⟩)
  | finish {size : Nat} {unread : Bytes} {queue : List SelfTestOutput}
      {result : Except String Unit} (isLive : live) (free : room) :
      ReaderStep stream live room (size, ⟨unread, .finishing result, queue⟩)
        (size, ⟨unread, .finished, queue ++ [.done result]⟩)
  | finishClosed {size : Nat} {unread : Bytes} {queue : List SelfTestOutput}
      {result : Except String Unit} (closed : ¬ live) :
      ReaderStep stream live room (size, ⟨unread, .finishing result, queue⟩)
        (size, ⟨unread, .finished, queue⟩)

variable (V : Type) [SemVer V] [Crates V]

/-- The polling loop: collecting, or returned with what it had collected. -/
inductive PollingLoop where
  | collecting (seen : SelfTestRun)
  | returned (seen : SelfTestRun) (result : Except (InstallError V) Unit)

structure SelfTestSystem where
  outputSize : Nat
  readers : OutputStream → Reader
  /-- Whether the child has exited, and if so whether successfully. -/
  child : Option Bool
  loop : PollingLoop V

variable {V}

namespace SelfTestSystem

/-- The system right after the two readers were spawned. -/
def start (stdout stderr : Bytes) : SelfTestSystem V where
  outputSize := 0
  readers
    | .stdout => ⟨stdout, .reading, []⟩
    | .stderr => ⟨stderr, .reading, []⟩
  child := none
  loop := .collecting .start

def Live (s : SelfTestSystem V) : Prop := ∃ seen, s.loop = .collecting seen

def Room (s : SelfTestSystem V) : Prop :=
  (s.readers .stdout).queue.length + (s.readers .stderr).queue.length < selfTestChannel

def setReader (s : SelfTestSystem V) (stream : OutputStream) (reader : Reader) :
    SelfTestSystem V :=
  { s with readers := Function.update s.readers stream reader }

def setSize (s : SelfTestSystem V) (size : Nat) : SelfTestSystem V := { s with outputSize := size }

def setChild (s : SelfTestSystem V) (child : Option Bool) : SelfTestSystem V :=
  { s with child := child }

def setLoop (s : SelfTestSystem V) (loop : PollingLoop V) : SelfTestSystem V :=
  { s with loop := loop }

instance (s : SelfTestSystem V) : Decidable s.Room := inferInstanceAs (Decidable (_ < _))

/-- What the loop may receive, and what the readers are left with. -/
inductive Receives (s : SelfTestSystem V) : Received → SelfTestSystem V → Prop where
  | message (stream : OutputStream) {message : SelfTestOutput} {rest : List SelfTestOutput}
      (first : (s.readers stream).queue = message :: rest) :
      Receives s message.received (s.setReader stream ((s.readers stream).waiting rest))
  | timeout : Receives s .timeout s
  | disconnected
      (gone : ∀ stream, (s.readers stream).phase = .finished ∧ (s.readers stream).queue = []) :
      Receives s .disconnected s

/-- The loop after one pass. -/
def afterPass (seen : SelfTestRun) (pass : Poll) : PollingLoop V :=
  match pollSelfTest seen pass with
  | .ok next => .collecting next
  | .error error => .returned seen (.error error)

def Complete (seen : SelfTestRun) : Prop := seen.status.isSome ∧ 2 ≤ seen.readersDone

instance (seen : SelfTestRun) : Decidable (Complete seen) := inferInstanceAs (Decidable (_ ∧ _))

/-- One step of the system. -/
inductive Step (version : V) : SelfTestSystem V → SelfTestSystem V → Prop where
  | reader {s : SelfTestSystem V} (stream : OutputStream) {size : Nat} {reader : Reader}
      (step : ReaderStep stream s.Live s.Room (s.outputSize, s.readers stream) (size, reader)) :
      Step version s ((s.setReader stream reader).setSize size)
  | exit {s : SelfTestSystem V} (success : Bool) (running : s.child = none) :
      Step version s (s.setChild (some success))
  | poll {s t : SelfTestSystem V} {seen : SelfTestRun} (pass : Poll)
      (collecting : s.loop = .collecting seen) (more : ¬ Complete seen)
      (waited : pass.status = .ok s.child ∨ ∃ error, pass.status = .error error)
      (receives : s.Receives pass.received t) :
      Step version s (t.setLoop (afterPass seen pass))
  | judge {s : SelfTestSystem V} {seen : SelfTestRun} (collecting : s.loop = .collecting seen)
      (complete : Complete seen) :
      Step version s (s.setLoop (.returned seen (judgeSelfTest version seen)))

/-- A run of any length. -/
abbrev Runs (version : V) : SelfTestSystem V → SelfTestSystem V → Prop :=
  Relation.ReflTransGen (Step version)

end SelfTestSystem

end Relswap
