import AIM.Foundation.Execution
import Mathlib.Data.List.Forall2
import Mathlib.Data.Nat.Basic

namespace AIM.Client

/-! # The receive loop

`SocketClient::rxThr`: Ethernet frames are received into one buffer, and those with
the GeoNetworking EtherType are passed to `manageMessage`. -/

def msgbufMaxsiz : Nat := 2048

def gnEthertype : UInt16 := 0x8947

structure EthernetFrame where
  bytes : List UInt8
  fits : bytes.length ≤ msgbufMaxsiz

/-- What `recvfrom` returns; a failed call leaves the buffer as it is. -/
inductive RecvResult
  | error
  | frame (received : EthernetFrame)

inductive PollEvent
  | nothing
  | socket (result : RecvResult)
  | unlockPipe

abbrev MacAddress := Fin 6 → UInt8

/-- `struct ether_header`, the EtherType in host byte order. -/
structure EtherHeader where
  etherDhost : MacAddress
  etherShost : MacAddress
  etherType : UInt16

/-- `sizeof(struct ether_header)` -/
def EtherHeader.size : Nat := 14

def EtherHeader.read (msgbuf : Nat → UInt8) : EtherHeader where
  etherDhost := fun index => msgbuf index
  etherShost := fun index => msgbuf (6 + index)
  etherType := (msgbuf 12).toUInt16 <<< 8 ||| (msgbuf 13).toUInt16

def compareMac (macA macB : MacAddress) : Bool :=
  macA 0 == macB 0 && macA 1 == macB 1 && macA 2 == macB 2 && macA 3 == macB 3 &&
    macA 4 == macB 4 && macA 5 == macB 5

theorem compareMac_iff (macA macB : MacAddress) : compareMac macA macB = true ↔ macA = macB := by
  simp only [compareMac, Bool.and_eq_true, beq_iff_eq, funext_iff, Fin.forall_fin_succ]
  simp [and_assoc]

structure ManageMessageCall where
  buf : Nat → UInt8
  bufsize : UInt64

/-- The value that is stored in the `size_t` variable `msglen`. -/
def RecvResult.msglen : RecvResult → UInt64
  | .error => -1
  | .frame received => .ofNat received.bytes.length

def RecvResult.write (msgbuf : Nat → UInt8) : RecvResult → Nat → UInt8
  | .error => msgbuf
  | .frame received => fun index => received.bytes.getD index (msgbuf index)

section

variable (selfMac : Option MacAddress)

def receive (msgbuf : Nat → UInt8) (result : RecvResult) :
    (Nat → UInt8) × Option ManageMessageCall :=
  let msgbuf := result.write msgbuf
  let etherHeader := EtherHeader.read msgbuf
  if etherHeader.etherType ≠ gnEthertype then (msgbuf, none)
  else if selfMac.any (compareMac etherHeader.etherShost) = true then (msgbuf, none)
  else if result.msglen < 0 then (msgbuf, none)
  else (msgbuf, some {
    buf := fun index => msgbuf (EtherHeader.size + index)
    bufsize := result.msglen - .ofNat EtherHeader.size })

/-- The calls of `manageMessage` that the loop makes. -/
def rxThr (msgbuf : Nat → UInt8) : List PollEvent → List ManageMessageCall
  | [] => []
  | .nothing :: rest => rxThr msgbuf rest
  | .socket result :: rest =>
      (receive selfMac msgbuf result).2.toList ++
        rxThr (receive selfMac msgbuf result).1 rest
  | .unlockPipe :: _ => []

/-! ## Good frames -/

def EtherHeader.Passes (header : EtherHeader) : Prop :=
  header.etherType = gnEthertype ∧ selfMac ≠ some header.etherShost

def EthernetFrame.Good (received : EthernetFrame) : Prop :=
  EtherHeader.size ≤ received.bytes.length ∧
    (EtherHeader.read fun index => received.bytes.getD index 0).Passes selfMac

theorem any_compareMac_iff (etherShost : MacAddress) :
    selfMac.any (compareMac etherShost) = true ↔ selfMac = some etherShost := by
  cases selfMac with
  | none => simp
  | some mac =>
      rw [Option.any_some, compareMac_iff, Option.some.injEq]
      exact eq_comm

instance (header : EtherHeader) : Decidable (header.Passes selfMac) :=
  decidable_of_iff (header.etherType = gnEthertype ∧
      ¬selfMac.any (compareMac header.etherShost) = true)
    (and_congr_right' (not_congr (any_compareMac_iff selfMac header.etherShost)))

instance (received : EthernetFrame) : Decidable (received.Good selfMac) :=
  inferInstanceAs (Decidable (_ ∧ _))

def goodFrame : RecvResult → Option EthernetFrame
  | .error => none
  | .frame received => if received.Good selfMac then some received else none

def goodFrames : List PollEvent → List EthernetFrame
  | [] => []
  | .nothing :: rest => goodFrames rest
  | .socket result :: rest => (goodFrame selfMac result).toList ++ goodFrames rest
  | .unlockPipe :: _ => []

structure Delivers (call : ManageMessageCall) (received : EthernetFrame) : Prop where
  bufsize : call.bufsize.toNat = received.bytes.length - EtherHeader.size
  contents : ∀ index < received.bytes.length - EtherHeader.size,
    received.bytes[EtherHeader.size + index]? = some (call.buf index)

/-! ## The exact condition -/

def pollStep (msgbuf : Nat → UInt8) : PollEvent → Option (Nat → UInt8)
  | .nothing => some msgbuf
  | .socket result => some (result.write msgbuf)
  | .unlockPipe => none

/-- After an error, or a frame without a complete header, what the buffer holds is not a
header that passes. -/
def StaleHeaderFails (msgbuf : Nat → UInt8) : PollEvent → Prop
  | .socket .error => ¬(EtherHeader.read msgbuf).Passes selfMac
  | .socket (.frame received) =>
      received.bytes.length < EtherHeader.size →
        ¬(EtherHeader.read ((RecvResult.frame received).write msgbuf)).Passes selfMac
  | _ => True

variable {selfMac}

theorem receive_fst (msgbuf : Nat → UInt8) (result : RecvResult) :
    (receive selfMac msgbuf result).1 = result.write msgbuf := by
  simp only [receive, apply_ite Prod.fst, ite_self]

/-- The length test never fails, because the length is unsigned. -/
theorem receive_snd (msgbuf : Nat → UInt8) (result : RecvResult) :
    (receive selfMac msgbuf result).2 =
      if (EtherHeader.read (result.write msgbuf)).Passes selfMac then
        some {
          buf := fun index => result.write msgbuf (EtherHeader.size + index)
          bufsize := result.msglen - .ofNat EtherHeader.size }
      else none := by
  have unsigned : ¬result.msglen < 0 := UInt64.not_lt_zero
  have own := any_compareMac_iff selfMac (EtherHeader.read (result.write msgbuf)).etherShost
  simp only [receive, if_neg unsigned]
  by_cases gn : (EtherHeader.read (result.write msgbuf)).etherType = gnEthertype
  · by_cases fromSelf : selfMac.any
        (compareMac (EtherHeader.read (result.write msgbuf)).etherShost) = true
    · rw [if_neg (not_not.mpr gn), if_pos fromSelf, if_neg]
      exact fun passes => passes.2 (own.mp fromSelf)
    · rw [if_neg (not_not.mpr gn), if_neg fromSelf, if_pos]
      exact ⟨gn, fun equal => fromSelf (own.mpr equal)⟩
  · rw [if_pos gn, if_neg]
    exact fun passes => gn passes.1

theorem getD_of_lt {bytes : List UInt8} (other : UInt8) {index : Nat}
    (inside : index < bytes.length) : bytes.getD index other = bytes[index] := by
  rw [List.getD_eq_getElem?_getD, List.getElem?_eq_getElem inside, Option.getD_some]

theorem read_write {received : EthernetFrame}
    (complete : EtherHeader.size ≤ received.bytes.length) (msgbuf : Nat → UInt8) :
    EtherHeader.read ((RecvResult.frame received).write msgbuf) =
      EtherHeader.read fun index => received.bytes.getD index 0 := by
  have inside (index : Nat) (small : index < 14) :
      received.bytes.getD index (msgbuf index) = received.bytes.getD index 0 := by
    have bound : index < received.bytes.length := Nat.lt_of_lt_of_le small complete
    rw [getD_of_lt _ bound, getD_of_lt _ bound]
  simp only [EtherHeader.read, RecvResult.write]
  congr 1
  · funext index
    exact inside index (by omega)
  · funext index
    exact inside (6 + index) (by omega)
  · rw [inside 12 (by omega), inside 13 (by omega)]

theorem receive_good {received : EthernetFrame} (good : received.Good selfMac)
    (msgbuf : Nat → UInt8) :
    ∃ call, (receive selfMac msgbuf (.frame received)).2 = some call ∧
      Delivers call received := by
  rcases good with ⟨complete, passes⟩
  rw [← read_write complete msgbuf] at passes
  refine ⟨_, (receive_snd msgbuf _).trans (if_pos passes), ?_, ?_⟩
  · have fits := received.fits
    have complete' : 14 ≤ received.bytes.length := complete
    change received.bytes.length ≤ 2048 at fits
    change (UInt64.ofNat received.bytes.length - .ofNat 14).toNat = received.bytes.length - 14
    rw [UInt64.toNat_sub_of_le, UInt64.toNat_ofNat', UInt64.toNat_ofNat']
    · omega
    · rw [UInt64.le_iff_toNat_le, UInt64.toNat_ofNat', UInt64.toNat_ofNat']
      omega
  · intro index inside
    have bound : EtherHeader.size + index < received.bytes.length := by omega
    rw [List.getElem?_eq_getElem bound]
    exact congrArg some (getD_of_lt _ bound).symm

theorem goodFrame_eq_some {result : RecvResult} {received : EthernetFrame}
    (good : goodFrame selfMac result = some received) :
    result = .frame received ∧ received.Good selfMac := by
  cases result with
  | error => cases good
  | frame other =>
      rw [goodFrame, Option.ite_none_right_eq_some] at good
      rcases good with ⟨isGood, equal⟩
      cases equal
      exact ⟨rfl, isGood⟩

theorem receive_eq_none_iff {result : RecvResult} (bad : goodFrame selfMac result = none)
    (msgbuf : Nat → UInt8) :
    (receive selfMac msgbuf result).2 = none ↔
      StaleHeaderFails selfMac msgbuf (.socket result) := by
  rw [receive_snd, ite_eq_right_iff]
  cases result with
  | error =>
      constructor
      · intro noCall passes
        cases noCall passes
      · intro fails passes
        exact absurd passes fails
  | frame received =>
      have notGood : ¬received.Good selfMac := by
        intro good
        rw [goodFrame, if_pos good] at bad
        cases bad
      constructor
      · intro noCall _ passes
        cases noCall passes
      · intro fails passes
        exfalso
        rcases Nat.lt_or_ge received.bytes.length EtherHeader.size with short | complete
        · exact fails short passes
        · rw [read_write complete] at passes
          exact notGood ⟨complete, passes⟩

theorem staleHeaderFails_of_good {received : EthernetFrame} (good : received.Good selfMac)
    (msgbuf : Nat → UInt8) :
    StaleHeaderFails selfMac msgbuf (.socket (.frame received)) :=
  fun short => absurd good.1 (Nat.not_le.mpr short)

theorem length_goodFrames_le (msgbuf : Nat → UInt8) (events : List PollEvent) :
    (goodFrames selfMac events).length ≤ (rxThr selfMac msgbuf events).length := by
  induction events generalizing msgbuf with
  | nil => exact Nat.le_refl _
  | cons event rest induction =>
      cases event with
      | nothing => exact induction msgbuf
      | unlockPipe => exact Nat.le_refl _
      | socket result =>
          have later := induction (receive selfMac msgbuf result).1
          rw [goodFrames, rxThr, List.length_append, List.length_append]
          cases good : goodFrame selfMac result with
          | none =>
              rw [Option.toList_none, List.length_nil, Nat.zero_add]
              exact Nat.le_trans later (Nat.le_add_left _ _)
          | some received =>
              rcases goodFrame_eq_some good with ⟨rfl, isGood⟩
              rcases receive_good isGood msgbuf with ⟨call, called, _⟩
              rw [called]
              exact Nat.add_le_add_left later 1

/-- The loop calls `manageMessage` for the good frames, in order and for nothing else,
exactly if no error and no short frame meets a buffer with a header that passes. -/
theorem rxThr_delivers_iff (selfMac : Option MacAddress) (msgbuf : Nat → UInt8)
    (events : List PollEvent) :
    List.Forall₂ Delivers (rxThr selfMac msgbuf events) (goodFrames selfMac events) ↔
      Execution.Always pollStep (StaleHeaderFails selfMac) msgbuf events := by
  induction events generalizing msgbuf with
  | nil => exact iff_of_true .nil trivial
  | cons event rest induction =>
      cases event with
      | nothing => exact (induction msgbuf).trans (iff_of_eq (true_and _).symm)
      | unlockPipe => exact iff_of_true .nil ⟨trivial, trivial⟩
      | socket result =>
          have later := induction (result.write msgbuf)
          rw [goodFrames, rxThr, receive_fst]
          cases good : goodFrame selfMac result with
          | some received =>
              rcases goodFrame_eq_some good with ⟨rfl, isGood⟩
              rcases receive_good isGood msgbuf with ⟨call, called, delivers⟩
              rw [called, Option.toList_some, Option.toList_some, List.singleton_append,
                List.singleton_append, List.forall₂_cons]
              exact and_congr (iff_of_true delivers (staleHeaderFails_of_good isGood msgbuf))
                later
          | none =>
              have stale := receive_eq_none_iff good msgbuf
              cases called : (receive selfMac msgbuf result).2 with
              | none =>
                  exact later.trans (and_iff_right (stale.mp called)).symm
              | some call =>
                  apply iff_of_false
                  · -- There are more calls than good frames.
                    intro delivered
                    have lengths := delivered.length_eq
                    have missed := @length_goodFrames_le selfMac (result.write msgbuf) rest
                    simp only [Option.toList_some, Option.toList_none, List.singleton_append,
                      List.nil_append, List.length_cons] at lengths
                    omega
                  · rintro ⟨fails, _⟩
                    rw [stale.mpr fails] at called
                    cases called

end

def gnFrame : EthernetFrame where
  bytes := List.replicate 12 0 ++ [0x89, 0x47]
  fits := by decide

/-- A failed call of `recvfrom` after a good frame is taken for a frame again, with a
length that has wrapped around. -/
theorem rxThr_delivers_stale :
    let events : List PollEvent := [.socket (.frame gnFrame), .socket .error]
    (rxThr none (fun _ => 0) events).map (fun call => call.bufsize) = [0, -15] ∧
      ¬List.Forall₂ Delivers (rxThr none (fun _ => 0) events) (goodFrames none events) := by
  intro events
  refine ⟨by decide +kernel, ?_⟩
  intro delivered
  exact absurd delivered.length_eq (by decide +kernel)

end AIM.Client
