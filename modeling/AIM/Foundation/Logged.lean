namespace AIM

universe u v w

/-! # Logged events

A computation that returns a value together with the events on its way, in their order. -/

structure Logged (Event : Type u) (α : Type v) where
  value : α
  events : List Event

namespace Logged

instance {Event : Type u} : Monad (Logged Event) where
  pure value := ⟨value, []⟩
  bind first next := ⟨(next first.value).value, first.events ++ (next first.value).events⟩

variable {Event : Type u} {α : Type v} {β : Type v}

@[simp] theorem value_pure (result : α) : (pure result : Logged Event α).value = result := rfl

@[simp] theorem events_pure (result : α) : (pure result : Logged Event α).events = [] := rfl

@[simp] theorem value_bind (first : Logged Event α) (next : α → Logged Event β) :
    (first >>= next).value = (next first.value).value := rfl

@[simp] theorem events_bind (first : Logged Event α) (next : α → Logged Event β) :
    (first >>= next).events = first.events ++ (next first.value).events := rfl

theorem forall_events_bind {property : Event → Prop} (first : Logged Event α)
    (next : α → Logged Event β) :
    (∀ event ∈ (first >>= next).events, property event) ↔
      (∀ event ∈ first.events, property event) ∧
        ∀ event ∈ (next first.value).events, property event := by
  rw [events_bind, List.forall_mem_append]

end Logged

end AIM
