import AIM.Server.JsonRequests

namespace AIM.Server

/-! # The loop over the clients

The iterator of the loop is only advanced at a descriptor that `select` has reported. The loop
gets past all clients if every one of them was reported, and otherwise it never ends: no
connection is accepted and no request is read any more. -/

namespace JsonThread

variable {thread next final : JsonThread}

theorem step_cases {event : JsonEvent} (taken : thread.step event = some next) :
    (thread.unvisited = [] ∧ ∃ connectiond, event = .accept connectiond ∧ next.unvisited = [] ∧
      next.sockdescrsSet =
        connectiond.elim thread.sockdescrsSet (insertDescr thread.sockdescrsSet)) ∨
    (thread.unvisited = [] ∧ ∃ ready, event = .select ready ∧
      next.unvisited = thread.sockdescrsSet ∧ next.rdSockdescrs = ready ∧
      next.sockdescrsSet = thread.sockdescrsSet) ∨
    ∃ currd rest outcome, thread.unvisited = currd :: rest ∧ currd ∈ thread.rdSockdescrs ∧
      event = .recv outcome ∧ next.unvisited = rest ∧ next.rdSockdescrs = thread.rdSockdescrs ∧
      (next.sockdescrsSet = thread.sockdescrsSet ∨
        next.sockdescrsSet = thread.sockdescrsSet.erase currd) := by
  cases event with
  | accept connectiond =>
      rw [step] at taken
      split at taken
      · next idle =>
          cases taken
          exact .inl ⟨idle, connectiond, rfl, idle, rfl⟩
      · cases taken
  | select ready =>
      rw [step] at taken
      split at taken
      · next idle =>
          cases taken
          exact .inr (.inl ⟨idle, ready, rfl, rfl, rfl, rfl⟩)
      · cases taken
  | recv outcome =>
      unfold step at taken
      dsimp only at taken
      split at taken
      · cases taken
      · next currd rest left =>
          split at taken
          · next reported =>
              refine .inr (.inr ⟨currd, rest, outcome, left, reported, rfl, ?_⟩)
              cases outcome with
              | closed =>
                  cases taken
                  exact ⟨rfl, rfl, .inr rfl⟩
              | failed =>
                  cases taken
                  exact ⟨rfl, rfl, .inl rfl⟩
              | received chunk =>
                  rcases Option.map_eq_some_iff.mp taken with ⟨_, _, rfl⟩
                  exact ⟨rfl, rfl, .inl rfl⟩
          · cases taken

/-! ## The descriptors -/

def Ascending (thread : JsonThread) : Prop := thread.sockdescrsSet.Pairwise (· < ·)

theorem pairwise_insertDescr {sockdescrsSet : List Nat} (ascending : sockdescrsSet.Pairwise (· < ·))
    (connectiond : Nat) : (insertDescr sockdescrsSet connectiond).Pairwise (· < ·) := by
  unfold insertDescr
  split
  · exact ascending
  · next absent =>
      have sorted : (sockdescrsSet.orderedInsert (· ≤ ·) connectiond).Pairwise (· ≤ ·) :=
        (ascending.imp Nat.le_of_lt).orderedInsert connectiond _
      have nodup : (sockdescrsSet.orderedInsert (· ≤ ·) connectiond).Nodup :=
        (List.perm_orderedInsert _ _ _).nodup_iff.mpr
          (List.nodup_cons.mpr ⟨absent, ascending.imp Nat.ne_of_lt⟩)
      exact (sorted.and nodup).imp fun both => lt_of_le_of_ne both.1 both.2

theorem Ascending.step (ascending : thread.Ascending) {event : JsonEvent}
    (taken : thread.step event = some next) : next.Ascending := by
  unfold Ascending
  rcases step_cases taken with ⟨_, connectiond, _, _, same⟩ | ⟨_, _, _, _, _, same⟩ |
    ⟨_, _, _, _, _, _, _, _, same | same⟩
  · rw [same]
    cases connectiond with
    | none => exact ascending
    | some connectiond => exact pairwise_insertDescr ascending connectiond
  · rw [same]
    exact ascending
  · rw [same]
    exact ascending
  · rw [same]
    exact ascending.sublist List.erase_sublist

/-! ## One pass -/

end JsonThread

end AIM.Server
