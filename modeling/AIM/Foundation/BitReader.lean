import AIM.Foundation.Bits
import AIM.Foundation.LoggedReader

namespace AIM

/-! # Bit readers

Computations that take numbers from a stream of bits. They are data, so that the same
reader can be run on a list of bits and on what a program keeps of its stream. -/

/-- A reader returns a value or stops with a fault, or gets a number of `nbits` bits, which
is missing when the stream has fewer. At most `widest` bits are got at once. -/
inductive BitReader (widest : Nat) (Fault α : Type)
  | done (value : α)
  | stop (fault : Fault)
  | get (nbits : Fin (widest + 1)) (next : Option Nat → BitReader widest Fault α)

namespace BitReader

variable {widest : Nat} {Fault α β State : Type}

def bind : BitReader widest Fault α → (α → BitReader widest Fault β) → BitReader widest Fault β
  | done value, following => following value
  | stop fault, _ => stop fault
  | get nbits next, following => get nbits fun number => (next number).bind following

instance : Monad (BitReader widest Fault) where
  pure := done
  bind := bind

/-- The value with the bits behind the ones that were taken. -/
def run : BitReader widest Fault α → List Bool → Except Fault (α × List Bool)
  | done value, bits => .ok (value, bits)
  | stop fault, _ => .error fault
  | get nbits next, bits =>
      if nbits.val ≤ bits.length then
        (next (some (Bits.toNat (bits.take nbits)))).run (bits.drop nbits)
      else (next none).run bits

/-- The number of the next bits, which are only taken when there are enough of them. -/
def take (nbits : Nat) : BitReader widest Fault (Option Nat) :=
  if narrow : nbits < widest + 1 then get ⟨nbits, narrow⟩ done else done none

def orStop (fault : Fault) : Option α → BitReader widest Fault α
  | some value => done value
  | none => stop fault

def mapFault (change : Fault → Other) : BitReader widest Fault α → BitReader widest Other α
  | done value => done value
  | stop fault => stop (change fault)
  | get nbits next => get nbits fun number => (next number).mapFault change

@[simp] theorem run_pure (value : α) (bits : List Bool) :
    (pure value : BitReader widest Fault α).run bits = .ok (value, bits) := rfl

@[simp] theorem run_stop (fault : Fault) (bits : List Bool) :
    (stop fault : BitReader widest Fault α).run bits = .error fault := rfl

@[simp] theorem run_bind (reader : BitReader widest Fault α)
    (following : α → BitReader widest Fault β) (bits : List Bool) :
    (reader >>= following).run bits =
      (reader.run bits).bind fun result => (following result.1).run result.2 := by
  induction reader generalizing bits with
  | done value => rfl
  | stop fault => rfl
  | get nbits next hypothesis =>
      change (get nbits fun number => next number >>= following).run bits = _
      rw [run, run]
      split
      · exact hypothesis _ _
      · exact hypothesis _ _

theorem run_bind_of_ok {reader : BitReader widest Fault α} {value : α} {bits rest : List Bool}
    (success : reader.run bits = .ok (value, rest)) (following : α → BitReader widest Fault β) :
    (reader >>= following).run bits = (following value).run rest := by
  rw [run_bind, success]
  rfl

theorem run_take (nbits : Nat) (bits : List Bool) :
    (take nbits : BitReader widest Fault (Option Nat)).run bits =
      if nbits ≤ widest ∧ nbits ≤ bits.length then
        .ok (some (Bits.toNat (bits.take nbits)), bits.drop nbits)
      else .ok (none, bits) := by
  rw [take]
  by_cases narrow : nbits ≤ widest
  · rw [dif_pos (Nat.lt_succ_of_le narrow), run]
    simp only [narrow, true_and]
    rfl
  · rw [dif_neg (fun small => narrow (Nat.le_of_lt_succ small)), if_neg (fun both => narrow both.1)]
    rfl

theorem run_take_append {nbits : Nat} (narrow : nbits ≤ widest) {front : List Bool}
    (length : front.length = nbits) (rest : List Bool) :
    (take nbits : BitReader widest Fault (Option Nat)).run (front ++ rest) =
      .ok (some (Bits.toNat front), rest) := by
  rw [run_take, List.take_left' length, List.drop_left' length, List.length_append, length,
    if_pos ⟨narrow, Nat.le_add_right ..⟩]

theorem run_take_ofNat {nbits value : Nat} (narrow : nbits ≤ widest) (small : value < 2 ^ nbits)
    (rest : List Bool) :
    (take nbits : BitReader widest Fault (Option Nat)).run (Bits.ofNat nbits value ++ rest) =
      .ok (some value, rest) := by
  rw [run_take_append narrow (Bits.length_ofNat ..), Bits.toNat_ofNat, Nat.mod_eq_of_lt small]

@[simp] theorem run_orStop_some (fault : Fault) (value : α) (bits : List Bool) :
    (orStop fault (some value) : BitReader widest Fault α).run bits = .ok (value, bits) := rfl

@[simp] theorem run_orStop_none (fault : Fault) (bits : List Bool) :
    (orStop fault none : BitReader widest Fault α).run bits = .error fault := rfl

@[simp] theorem run_mapFault (change : Fault → Other) (reader : BitReader widest Fault α)
    (bits : List Bool) :
    (reader.mapFault change).run bits = (reader.run bits).mapError change := by
  induction reader generalizing bits with
  | done value => rfl
  | stop fault => rfl
  | get nbits next hypothesis =>
      rw [mapFault, run, run]
      split
      · exact hypothesis _ _
      · exact hypothesis _ _

theorem run_bind_eq_ok {reader : BitReader widest Fault α}
    {following : α → BitReader widest Fault β} {bits : List Bool} {result : β × List Bool} :
    (reader >>= following).run bits = .ok result ↔
      ∃ value rest, reader.run bits = .ok (value, rest) ∧
        (following value).run rest = .ok result := by
  rw [run_bind]
  cases reader.run bits with
  | error fault =>
      constructor
      · intro success
        cases success
      · rintro ⟨_, _, success, _⟩
        cases success
  | ok first =>
      constructor
      · intro success
        exact ⟨first.1, first.2, rfl, success⟩
      · rintro ⟨_, _, same, success⟩
        cases same
        exact success

theorem run_orStop_eq_ok {fault : Fault} {value : Option α} {bits : List Bool}
    {result : α × List Bool} :
    (orStop fault value : BitReader widest Fault α).run bits = .ok result ↔
      value = some result.1 ∧ bits = result.2 := by
  cases value with
  | none =>
      constructor
      · intro success
        cases success
      · rintro ⟨found, _⟩
        cases found
  | some value =>
      constructor
      · intro success
        cases success
        exact ⟨rfl, rfl⟩
      · rintro ⟨found, rfl⟩
        cases found
        rfl

theorem run_take_eq_ok {nbits value : Nat} {bits rest : List Bool} :
    (take nbits : BitReader widest Fault (Option Nat)).run bits = .ok (some value, rest) ↔
      nbits ≤ widest ∧ value < 2 ^ nbits ∧ bits = Bits.ofNat nbits value ++ rest := by
  constructor
  · intro success
    rw [run_take] at success
    split at success
    next enough =>
      cases success
      have length : (bits.take nbits).length = nbits := List.length_take_of_le enough.2
      have number := Bits.ofNat_toNat (bits.take nbits)
      have bound := Bits.toNat_lt (bits.take nbits)
      rw [length] at number bound
      exact ⟨enough.1, bound, by rw [number, List.take_append_drop]⟩
    next => cases success
  · rintro ⟨narrow, small, rfl⟩
    exact run_take_ofNat narrow small rest

theorem run_suffix {reader : BitReader widest Fault α} {bits : List Bool} {value : α}
    {rest : List Bool} (success : reader.run bits = .ok (value, rest)) : rest <:+ bits := by
  induction reader generalizing bits with
  | done value =>
      cases success
      exact List.suffix_rfl
  | stop fault => cases success
  | get nbits next hypothesis =>
      rw [run] at success
      split at success
      · exact (hypothesis _ success).trans (List.drop_suffix ..)
      · exact hypothesis _ success

/-! ## Faults -/

/-- On fewer than `limit` bits the reader does not stop with the fault. -/
def Avoids (reader : BitReader widest Fault α) (fault : Fault) (limit : Nat) : Prop :=
  ∀ bits, bits.length < limit → reader.run bits ≠ .error fault

section

variable {fault : Fault} {limit : Nat}

theorem avoids_pure (value : α) :
    (pure value : BitReader widest Fault α).Avoids fault limit := by
  intro bits _ stops
  cases stops

theorem avoids_stop {other : Fault} (different : other ≠ fault) :
    (stop other : BitReader widest Fault α).Avoids fault limit := by
  intro bits _ stops
  cases stops
  exact different rfl

theorem run_bind_ne_error {reader : BitReader widest Fault α}
    {following : α → BitReader widest Fault β} {bits : List Bool}
    (first : reader.run bits ≠ .error fault)
    (others : ∀ value rest, reader.run bits = .ok (value, rest) →
      (following value).run rest ≠ .error fault) :
    (reader >>= following).run bits ≠ .error fault := by
  rw [run_bind]
  cases result : reader.run bits with
  | error reason =>
      intro stops
      cases stops
      exact first result
  | ok result' => exact others _ _ result

theorem avoids_bind {reader : BitReader widest Fault α}
    {following : α → BitReader widest Fault β} (first : reader.Avoids fault limit)
    (others : ∀ value, (following value).Avoids fault limit) :
    (reader >>= following).Avoids fault limit := by
  intro bits short
  apply run_bind_ne_error (first bits short)
  intro value rest result
  exact others value rest (Nat.lt_of_le_of_lt (run_suffix result).length_le short)

theorem avoids_take (nbits : Nat) :
    (take nbits : BitReader widest Fault (Option Nat)).Avoids fault limit := by
  intro bits _ stops
  rw [run_take] at stops
  split at stops
  · cases stops
  · cases stops

theorem avoids_orStop {other : Fault} (different : other ≠ fault) (value : Option α) :
    (orStop other value : BitReader widest Fault α).Avoids fault limit := by
  cases value with
  | none => exact avoids_stop different
  | some value => exact avoids_pure value

end

/-! ## Other streams -/

/-- The reader on a stream that is kept in a state. -/
def runOn {m : Type → Type} [Monad m] (source : Fin (widest + 1) → State → m (Option Nat × State)) :
    BitReader widest Fault α → State → m (Except Fault α × State)
  | done value, state => pure (.ok value, state)
  | stop fault, state => pure (.error fault, state)
  | get nbits next, state => do
      let result ← source nbits state
      runOn source (next result.1) result.2

/-- What a state hands out are the bits of a list, and it is found in the first `size` cells. -/
structure HandsOut {Cell : Type}
    (source : Fin (widest + 1) → State → LoggedReader Cell (Option Nat × State))
    (memory : Nat → Cell) (size : Nat) (left : State → List Bool) (valid : State → Prop) :
    Prop where
  inside : ∀ nbits state, valid state → (source nbits state).Inside memory size
  keeps : ∀ nbits state, valid state → valid ((source nbits state).value memory).2
  enough : ∀ nbits state, valid state → nbits.val ≤ (left state).length →
    ((source nbits state).value memory).1 = some (Bits.toNat ((left state).take nbits)) ∧
      left ((source nbits state).value memory).2 = (left state).drop nbits
  short : ∀ nbits state, valid state → (left state).length < nbits.val →
    ((source nbits state).value memory).1 = none ∧
      left ((source nbits state).value memory).2 = left state

variable {Cell : Type}
  {source : Fin (widest + 1) → State → LoggedReader Cell (Option Nat × State)}
  {memory : Nat → Cell} {size : Nat} {left : State → List Bool} {valid : State → Prop}

theorem HandsOut.runOn_inside (hands : HandsOut source memory size left valid)
    (reader : BitReader widest Fault α) {state : State} (isValid : valid state) :
    (reader.runOn source state).Inside memory size := by
  induction reader generalizing state with
  | done value => simp [runOn]
  | stop fault => simp [runOn]
  | get nbits next hypothesis =>
      rw [runOn, LoggedReader.inside_bind]
      exact ⟨hands.inside nbits state isValid, hypothesis _ (hands.keeps nbits state isValid)⟩

theorem HandsOut.runOn_valid (hands : HandsOut source memory size left valid)
    (reader : BitReader widest Fault α) {state : State} (isValid : valid state) :
    valid ((reader.runOn source state).value memory).2 := by
  induction reader generalizing state with
  | done value => exact isValid
  | stop fault => exact isValid
  | get nbits next hypothesis => exact hypothesis _ (hands.keeps nbits state isValid)

theorem HandsOut.runOn_value (hands : HandsOut source memory size left valid)
    (reader : BitReader widest Fault α) {state : State} (isValid : valid state) :
    let result := (reader.runOn source state).value memory
    (reader.run (left state)) = result.1.map fun value => (value, left result.2) := by
  induction reader generalizing state with
  | done value => rfl
  | stop fault => rfl
  | get nbits next hypothesis =>
      have following := fun number => hypothesis number (hands.keeps nbits state isValid)
      simp only [runOn, run, LoggedReader.value_bind]
      split
      next enough =>
        rcases hands.enough nbits state isValid enough with ⟨number, rest⟩
        rw [number, ← rest]
        exact following _
      next few =>
        rcases hands.short nbits state isValid (by omega) with ⟨number, rest⟩
        rw [number]
        conv_lhs => rw [← rest]
        exact following _

end BitReader

end AIM
