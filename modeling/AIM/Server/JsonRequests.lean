import AIM.Foundation.Execution
import Mathlib.Data.List.Sort
import Mathlib.Data.Rat.Defs

namespace AIM.Server

/-! # JSON requests

`JSONthread_callback`: the requests of all clients are received into one buffer, and
the text of a request ends at the first zero byte. -/

/-- `sizeof(rx_buff)` -/
def rxBuffSize : Nat := 1024

structure Chunk where
  bytes : List UInt8
  nonempty : 0 < bytes.length
  fits : bytes.length ≤ rxBuffSize

inductive RecvOutcome
  | closed
  | failed
  | received (chunk : Chunk)

/-- What happens in the loops of the thread: a connection is accepted, `select` reports that
clients are ready, or `recv` is called for the next one of them. -/
inductive JsonEvent
  | accept (connectiond : Option Nat)
  | select (ready : List Nat)
  | recv (outcome : RecvOutcome)

/-- The memory of the thread: the buffer, what can be read behind it, the descriptors of
the connected clients in ascending order, those that the loop over them has not visited
yet, and those that `select` has reported. -/
structure JsonThread where
  rxBuff : List UInt8
  size : rxBuff.length = rxBuffSize
  behind : List UInt8
  sockdescrsSet : List Nat
  unvisited : List Nat
  rdSockdescrs : List Nat

/-- The constructor of `std::string` from a pointer: the bytes before the first zero.
There is no result if the readable memory ends before. -/
def cString : List UInt8 → Option (List UInt8)
  | [] => none
  | byte :: rest => if byte = 0 then some [] else (cString rest).map (byte :: ·)

/-- What a request leads to: data around a position, or a message on the console. -/
inductive JsonAnswer
  | data (lat lon : ℚ)
  | parseError (err : String)
  deriving DecidableEq

namespace JsonThread

variable (thread : JsonThread) (chunk : Chunk)

/-- `recv` writes to the beginning of the buffer. -/
def receive : JsonThread :=
  { thread with
    rxBuff := chunk.bytes ++ thread.rxBuff.drop chunk.bytes.length
    size := by
      have fits := chunk.fits
      rw [List.length_append, List.length_drop, thread.size]
      omega }

/-- `rx_str` after the chunk is received. -/
def rxStr : Option (List UInt8) :=
  cString ((thread.receive chunk).rxBuff ++ (thread.receive chunk).behind)

/-- `parse` stands for `json11::Json::parse` and the access to both numbers. -/
def answer (parse : List UInt8 → JsonAnswer) : Option JsonAnswer :=
  (thread.rxStr chunk).map parse

def IsReading : Prop := ∃ currd ∈ thread.unvisited.head?, currd ∈ thread.rdSockdescrs

def insertDescr (sockdescrsSet : List Nat) (connectiond : Nat) : List Nat :=
  if connectiond ∈ sockdescrsSet then sockdescrsSet
  else sockdescrsSet.orderedInsert (· ≤ ·) connectiond

/-- The loop over the clients does not get past one that is not ready: its iterator is
advanced in the other case only. There is no next state either if the string runs out of
the readable memory. -/
def step : JsonEvent → Option JsonThread
  | .accept connectiond =>
      if thread.unvisited = [] then
        some { thread with
          sockdescrsSet := connectiond.elim thread.sockdescrsSet
            (insertDescr thread.sockdescrsSet) }
      else none
  | .select ready =>
      if thread.unvisited = [] then
        some { thread with unvisited := thread.sockdescrsSet, rdSockdescrs := ready }
      else none
  | .recv outcome =>
      match thread.unvisited with
      | [] => none
      | currd :: rest =>
          if currd ∈ thread.rdSockdescrs then
            match outcome with
            | .closed =>
                some { thread with
                  sockdescrsSet := thread.sockdescrsSet.erase currd
                  unvisited := rest }
            | .failed => some { thread with unvisited := rest }
            | .received chunk =>
                (thread.rxStr chunk).map fun _ =>
                  { thread.receive chunk with unvisited := rest }
          else none

end JsonThread

/-! ## Strings in memory -/

theorem cString_append_of_mem {bytes : List UInt8} (terminated : 0 ∈ bytes)
    (rest : List UInt8) : cString (bytes ++ rest) = cString bytes := by
  induction bytes with
  | nil => cases terminated
  | cons byte bytes induction =>
      rw [List.cons_append, cString, cString]
      by_cases zero : byte = 0
      · rw [if_pos zero, if_pos zero]
      · rw [if_neg zero, if_neg zero, induction]
        exact (List.mem_cons.mp terminated).resolve_left (Ne.symm zero)

theorem cString_append_of_not_mem {bytes : List UInt8} (unterminated : 0 ∉ bytes)
    (rest : List UInt8) : cString (bytes ++ rest) = (cString rest).map (bytes ++ ·) := by
  induction bytes with
  | nil => simp
  | cons byte bytes induction =>
      rcases not_or.mp (mt List.mem_cons.mpr unterminated) with ⟨first, later⟩
      rw [List.cons_append, cString, if_neg (Ne.symm first), induction later, Option.map_map]
      rfl

/-! ## Isolation -/

def JsonThread.IsStart (thread : JsonThread) : Prop :=
  thread.sockdescrsSet = [] ∧ thread.unvisited = []

/-- Whatever the memory held at the start and whatever was received before, the same
text is parsed for the chunk, and so the same answer is given. -/
def Isolated (chunk : Chunk) : Prop :=
  ∀ (start other : JsonThread) (history otherHistory : List JsonEvent)
    (thread otherThread : JsonThread),
    start.IsStart → other.IsStart →
    Execution.run JsonThread.step start history = some thread →
    Execution.run JsonThread.step other otherHistory = some otherThread →
    thread.IsReading → otherThread.IsReading →
      thread.rxStr chunk = otherThread.rxStr chunk ∧
        ∀ parse, thread.answer chunk parse = otherThread.answer chunk parse

def JsonThread.filled (byte : UInt8) : JsonThread where
  rxBuff := List.replicate rxBuffSize byte
  size := List.length_replicate
  behind := [byte, 0]
  sockdescrsSet := []
  unvisited := []
  rdSockdescrs := []

theorem JsonThread.run_select (byte : UInt8) :
    ∃ thread, Execution.run step (filled byte) [.accept (some 4), .select [4]] = some thread ∧
      thread.IsReading ∧ thread.rxBuff = (filled byte).rxBuff ∧
      thread.behind = (filled byte).behind :=
  ⟨_, rfl, ⟨4, rfl, List.mem_singleton.mpr rfl⟩, rfl, rfl⟩

theorem JsonThread.rxStr_of_mem (thread : JsonThread) {chunk : Chunk}
    (terminated : 0 ∈ chunk.bytes) : thread.rxStr chunk = cString chunk.bytes := by
  rw [rxStr, receive, List.append_assoc]
  exact cString_append_of_mem terminated _

theorem JsonThread.rxStr_of_not_mem (thread : JsonThread) {chunk : Chunk}
    (unterminated : 0 ∉ chunk.bytes) :
    thread.rxStr chunk =
      (cString (thread.rxBuff.drop chunk.bytes.length ++ thread.behind)).map
        (chunk.bytes ++ ·) := by
  rw [rxStr, receive, List.append_assoc]
  exact cString_append_of_not_mem unterminated _

/-- A request is isolated from all others exactly if it contains a zero byte. -/
theorem isolated_iff (chunk : Chunk) : Isolated chunk ↔ 0 ∈ chunk.bytes := by
  constructor
  · intro isolated
    by_contra unterminated
    rcases JsonThread.run_select 0 with ⟨zeroThread, zeroRun, zeroReads, zeroBuff, zeroBehind⟩
    rcases JsonThread.run_select 65 with ⟨thread, run, reads, buff, behind⟩
    have same := (isolated (.filled 0) (.filled 65) _ _ zeroThread thread ⟨rfl, rfl⟩
      ⟨rfl, rfl⟩ zeroRun run zeroReads reads).1
    rw [JsonThread.rxStr_of_not_mem _ unterminated,
      JsonThread.rxStr_of_not_mem _ unterminated, zeroBuff, zeroBehind, buff, behind] at same
    change (cString ((List.replicate rxBuffSize 0).drop chunk.bytes.length ++ [0, 0])).map _ =
      (cString ((List.replicate rxBuffSize 65).drop chunk.bytes.length ++ [65, 0])).map _
      at same
    rw [List.drop_replicate, List.drop_replicate] at same
    generalize rxBuffSize - chunk.bytes.length = stale at same
    have noZero : 0 ∉ List.replicate stale (65 : UInt8) ++ [65] := by
      intro member
      rcases List.mem_append.mp member with inStale | last
      · exact absurd (List.eq_of_mem_replicate inStale) (by decide)
      · exact absurd last (by decide)
    have zeros : cString (List.replicate stale 0 ++ [0, 0]) = some [] := by
      cases stale <;> rfl
    have letters : cString (List.replicate stale 65 ++ [65, 0]) =
        some (List.replicate stale 65 ++ [65]) := by
      have split : List.replicate stale (65 : UInt8) ++ [65, 0] =
          List.replicate stale 65 ++ [65] ++ [0] := by simp
      rw [split, cString_append_of_not_mem noZero]
      exact congrArg some (List.append_nil _)
    rw [zeros, letters] at same
    have lengths := congrArg List.length (Option.some.inj same)
    simp only [List.length_append, List.length_nil, List.length_singleton] at lengths
    omega
  · intro terminated start other history otherHistory thread otherThread _ _ _ _ _ _
    have same : thread.rxStr chunk = otherThread.rxStr chunk := by
      rw [thread.rxStr_of_mem terminated, otherThread.rxStr_of_mem terminated]
    refine ⟨same, ?_⟩
    intro parse
    rw [JsonThread.answer, JsonThread.answer, same]

/-! A request without the final zero that the sample client sends. -/

def requestText (text : String) : List UInt8 := text.toList.map fun char => char.toNat.toUInt8

def longRequest : Chunk where
  bytes := requestText "\x7b\"lat\": 45.06, \"lon\": 7.66\x7d" ++ [0]
  nonempty := by decide +kernel
  fits := by decide +kernel

def shortRequest : Chunk where
  bytes := requestText "\x7b\x7d"
  nonempty := by decide +kernel
  fits := by decide +kernel

/-- Two clients are ready at once. The short request of the second one is parsed together
with what the long request of the first one has left behind it. -/
theorem not_isolated_of_unterminated : ¬Isolated shortRequest := by
  intro isolated
  have same := (isolated (.filled 0) (.filled 0) [.accept (some 4), .select [4]]
    [.accept (some 4), .accept (some 5), .select [4, 5], .recv (.received longRequest)]
    _ _ ⟨rfl, rfl⟩ ⟨rfl, rfl⟩
    (Option.some_get (by decide +kernel)).symm (Option.some_get (by decide +kernel)).symm
    ⟨4, by decide +kernel, by decide +kernel⟩ ⟨5, by decide +kernel, by decide +kernel⟩).1
  exact absurd same (by decide +kernel)

end AIM.Server
