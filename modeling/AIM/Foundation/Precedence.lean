import Mathlib.Data.List.Basic

namespace AIM

/-! # Precedence in a channel

A channel delivers its messages in order. Every late message has an early one before it,
in the channel or among what was delivered. -/

/-- No late message comes before the first early one, unless one was seen already. -/
def Precedes (early late : Message → Prop) : Prop → List Message → Prop
  | _, [] => True
  | seen, message :: rest =>
      (late message → seen) ∧ Precedes early late (seen ∨ early message) rest

namespace Precedes

variable {early late : Message → Prop} {seen other : Prop} {messages : List Message}

theorem mono (precedes : Precedes early late seen messages) (more : seen → other) :
    Precedes early late other messages := by
  induction messages generalizing seen other with
  | nil => trivial
  | cons message rest induction =>
      constructor
      · exact fun isLate => more (precedes.1 isLate)
      · apply induction precedes.2
        exact Or.imp_left more

theorem append (precedes : Precedes early late seen messages) {message : Message}
    (prepared : late message → seen ∨ ∃ sent ∈ messages, early sent) :
    Precedes early late seen (messages ++ [message]) := by
  induction messages generalizing seen with
  | nil =>
      constructor
      · intro isLate
        rcases prepared isLate with isSeen | ⟨_, member, _⟩
        · exact isSeen
        · cases member
      · trivial
  | cons first rest induction =>
      constructor
      · exact precedes.1
      · apply induction precedes.2
        intro isLate
        rcases prepared isLate with isSeen | ⟨sent, member, isEarly⟩
        · exact .inl (.inl isSeen)
        · rcases List.mem_cons.mp member with rfl | later
          · exact .inl (.inr isEarly)
          · exact .inr ⟨sent, later, isEarly⟩

end Precedes

end AIM
