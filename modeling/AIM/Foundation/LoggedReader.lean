import Mathlib.Data.Fin.Basic

namespace AIM

/-! # Logged reads

A computation over a random-access memory that returns its value together with
the addresses it has read, in order. The value and the addresses can be
reasoned about separately. -/

/-- A computation that may read a memory of `Cell`s. -/
def LoggedReader (Cell : Type u) (α : Type v) := (Nat → Cell) → α × List Nat

namespace LoggedReader

def value (reader : LoggedReader Cell α) (memory : Nat → Cell) : α :=
  (reader memory).1

/-- The addresses the computation reads on `memory`, in the order of the reads. -/
def reads (reader : LoggedReader Cell α) (memory : Nat → Cell) : List Nat :=
  (reader memory).2

instance : Monad (LoggedReader Cell) where
  pure result := fun _ => (result, [])
  bind reader next := fun memory =>
    let first := reader memory
    let second := next first.1 memory
    (second.1, first.2 ++ second.2)

def readCell (address : Nat) : LoggedReader Cell Cell :=
  fun memory => (memory address, [address])

def readBlock (address size : Nat) : LoggedReader Cell (Fin size → Cell) :=
  fun memory => (fun index => memory (address + index),
    (List.range size).map (address + ·))

@[simp] theorem value_pure (result : α) (memory : Nat → Cell) :
    (pure result : LoggedReader Cell α).value memory = result := rfl

@[simp] theorem reads_pure (result : α) (memory : Nat → Cell) :
    (pure result : LoggedReader Cell α).reads memory = [] := rfl

@[simp] theorem value_bind (reader : LoggedReader Cell α)
    (next : α → LoggedReader Cell β) (memory : Nat → Cell) :
    (reader >>= next).value memory = (next (reader.value memory)).value memory := rfl

@[simp] theorem reads_bind (reader : LoggedReader Cell α)
    (next : α → LoggedReader Cell β) (memory : Nat → Cell) :
    (reader >>= next).reads memory =
      reader.reads memory ++ (next (reader.value memory)).reads memory := rfl

@[simp] theorem value_readCell (address : Nat) (memory : Nat → Cell) :
    (readCell address).value memory = memory address := rfl

@[simp] theorem reads_readCell (address : Nat) (memory : Nat → Cell) :
    (readCell address).reads memory = [address] := rfl

@[simp] theorem value_readBlock (address size : Nat) (memory : Nat → Cell) :
    (readBlock address size).value memory =
      fun index : Fin size => memory (address + index) := rfl

@[simp] theorem reads_readBlock (address size : Nat) (memory : Nat → Cell) :
    (readBlock address size).reads memory =
      (List.range size).map (address + ·) := rfl

@[simp] theorem value_ite (condition : Prop) [Decidable condition]
    (first second : LoggedReader Cell α) (memory : Nat → Cell) :
    (if condition then first else second).value memory =
      if condition then first.value memory else second.value memory := by
  split <;> rfl

@[simp] theorem reads_ite (condition : Prop) [Decidable condition]
    (first second : LoggedReader Cell α) (memory : Nat → Cell) :
    (if condition then first else second).reads memory =
      if condition then first.reads memory else second.reads memory := by
  split <;> rfl

/-! ## Reads in the first cells -/

/-- All reads are of the first `size` cells. -/
def Inside (reader : LoggedReader Cell α) (memory : Nat → Cell) (size : Nat) : Prop :=
  ∀ address ∈ reader.reads memory, address < size

@[simp] theorem inside_pure (result : α) (memory : Nat → Cell) (size : Nat) :
    (pure result : LoggedReader Cell α).Inside memory size :=
  fun _ member => absurd member List.not_mem_nil

@[simp] theorem inside_bind (reader : LoggedReader Cell α) (next : α → LoggedReader Cell β)
    (memory : Nat → Cell) (size : Nat) :
    (reader >>= next).Inside memory size ↔
      reader.Inside memory size ∧ (next (reader.value memory)).Inside memory size :=
  List.forall_mem_append

@[simp] theorem inside_readCell (address : Nat) (memory : Nat → Cell) (size : Nat) :
    (readCell address).Inside memory size ↔ address < size :=
  List.forall_mem_singleton

@[simp] theorem inside_readBlock (address : Nat) {count : Nat} (nonempty : 0 < count)
    (memory : Nat → Cell) (size : Nat) :
    (readBlock address count).Inside memory size ↔ address + count ≤ size := by
  simp only [Inside, reads_readBlock, List.forall_mem_map, List.mem_range]
  constructor
  · intro inside
    have last := inside (count - 1) (by omega)
    omega
  · intro fits index inBlock
    omega

@[simp] theorem inside_ite (condition : Prop) [Decidable condition]
    (first second : LoggedReader Cell α) (memory : Nat → Cell) (size : Nat) :
    (if condition then first else second).Inside memory size ↔
      if condition then first.Inside memory size else second.Inside memory size := by
  split <;> rfl

/-! ## Known cells -/

def Holds (memory : Nat → Cell) (address : Nat) : List Cell → Prop
  | [] => True
  | cell :: rest => memory address = cell ∧ Holds memory (address + 1) rest

theorem holds_append {memory : Nat → Cell} {address : Nat} {first second : List Cell} :
    Holds memory address (first ++ second) ↔
      Holds memory address first ∧ Holds memory (address + first.length) second := by
  induction first generalizing address with
  | nil => exact (iff_of_eq (true_and _)).symm
  | cons cell rest induction =>
      rw [List.cons_append, Holds, induction, Holds, and_assoc, List.length_cons,
        Nat.add_assoc, Nat.add_comm 1]

theorem Holds.get {memory : Nat → Cell} {address : Nat} {cells : List Cell}
    (holds : Holds memory address cells) {index : Nat} (inside : index < cells.length) :
    memory (address + index) = cells[index] := by
  induction cells generalizing address index with
  | nil => cases inside
  | cons cell rest induction =>
      cases index with
      | zero => exact holds.1
      | succ index =>
          have later := induction holds.2 (Nat.lt_of_succ_lt_succ inside)
          rw [Nat.add_right_comm] at later
          exact later

/-- Cells that are followed by anything. -/
def memoryOf (cells : List Cell) (behind : Nat → Cell) : Nat → Cell :=
  fun address => cells.getD address (behind address)

theorem holds_memoryOf (cells : List Cell) (behind : Nat → Cell) :
    Holds (memoryOf cells behind) 0 cells := by
  have general : ∀ before after, cells = before ++ after →
      Holds (memoryOf cells behind) before.length after := by
    intro before after whole
    induction after generalizing before with
    | nil => trivial
    | cons cell rest induction =>
        constructor
        · simp [memoryOf, whole]
        · have later := induction (before ++ [cell]) (by simp [whole])
          rw [List.length_append] at later
          exact later
  exact general [] cells rfl

theorem value_readBlock_of_holds {memory : Nat → Cell} {address size : Nat}
    {block : Fin size → Cell} (holds : Holds memory address (List.ofFn block)) :
    (readBlock address size).value memory = block := by
  funext index
  have inside : index < (List.ofFn block).length := by
    rw [List.length_ofFn]
    exact index.isLt
  have cell := holds.get inside
  rw [List.getElem_ofFn] at cell
  exact cell

end LoggedReader

end AIM
