import FirmwareVariables.Proofs.DeviceTree.Grammar

/-!
# Asking a cursor again and again

A cursor can be asked any number of times. `answers` lists what it says, and `Token.allOf` is the
list that it gives when it meets some tokens and then the end, without a fault.

The main statements are `answers_eq_allOf_iff`, by which these answers are those of a walk that
meets the tokens and no fault, and `answers_of_walk`, by which such a walk fixes all answers to
come.
-/

namespace FirmwareVariables
namespace DeviceTree

/-- The answers that name each of the tokens and then the end. -/
def Token.allOf (tokens : List Token) : List Answer :=
  tokens.map (fun token => .ok (some token)) ++ [.ok none]

namespace Cursor

variable {strings : Bytes}

/-- The answers to `count` steps, each taken where the one before it left the cursor. -/
def answers (strings : Bytes) : Nat → Cursor → List Answer
  | 0, _ => []
  | count + 1, cursor =>
      (cursor.next strings).1 :: answers strings count (cursor.next strings).2

/-- A cursor answers tokens and the end if and only if its walk meets just these tokens. -/
theorem answers_eq_allOf_iff (tokens : List Token) (cursor : Cursor) :
    answers strings (tokens.length + 1) cursor = Token.allOf tokens ↔
      (cursor.walk strings).tokens = tokens ∧ (cursor.walk strings).fault = none := by
  induction tokens generalizing cursor with
  | nil =>
      rcases hnext : cursor.next strings with ⟨fault | _ | token, after⟩
      · simp [answers, Token.allOf, hnext, walk_of_fault hnext]
      · simp [answers, Token.allOf, hnext, walk_of_end hnext, Walk.tokens]
      · simp [answers, Token.allOf, hnext, walk_of_token hnext, Walk.tokens]
  | cons token tokens ih =>
      rcases hnext : cursor.next strings with ⟨fault | _ | other, after⟩
      · simp [answers, Token.allOf, hnext, walk_of_fault hnext]
      · simp [answers, Token.allOf, hnext, walk_of_end hnext, Walk.tokens]
      · have hlater := ih after
        simp only [Token.allOf] at hlater
        rw [List.length_cons, answers, hnext, walk_of_token hnext, Token.allOf, List.map_cons,
          List.cons_append, List.cons.injEq, hlater]
        simp only [Except.ok.injEq, Option.some.injEq, Walk.tokens, List.map_cons,
          List.cons.injEq, and_assoc]

/-- Only the marker for the end is answered with the end, and only outside of all nodes. -/
theorem readItem_end
    {code : Nat} {cursor after : Cursor}
    (hitem : readItem strings code cursor = (.ok none, after)) :
    code = Marker.finish.code ∧ cursor.depth = 0 ∧ after = { cursor with finished := true } := by
  unfold readItem at hitem
  split at hitem
  · obtain ⟨name, filling, left, hname, -⟩ := octets_of_readBegin hitem
    cases hname
  · unfold readEnd at hitem
    split at hitem <;> cases hitem
  · obtain ⟨property, offset, filling, left, hproperty, -⟩ := octets_of_readProperty hitem
    cases hproperty
  · rename_i hmarker
    unfold readFinish at hitem
    split at hitem
    · rename_i hdepth
      cases hitem
      exact ⟨Marker.code_of_ofCode? hmarker, hdepth, rfl⟩
    · cases hitem
  · cases hitem
  · cases hitem

/-- A cursor that answers the end is finished, and will answer it forever. -/
theorem finished_of_end
    {cursor after : Cursor}
    (hnext : cursor.next strings = (.ok none, after)) :
    after.finished = true := by
  unfold next at hnext
  split at hnext
  · rename_i hfinished
    cases hnext
    exact hfinished
  · simp only at hnext
    split at hnext
    · cases hnext
    · rw [(readItem_end hnext).2.2]

/-- A walk without a fault fixes every answer of its cursor. -/
theorem answers_of_walk
    {cursor : Cursor}
    (hfault : (cursor.walk strings).fault = none)
    (count : Nat) :
    answers strings count cursor =
      (List.range count).map fun place => .ok (cursor.walk strings).tokens[place]? := by
  induction count generalizing cursor with
  | zero => rfl
  | succ count ih =>
      rw [List.range_succ_eq_map, List.map_cons, List.map_map, answers]
      rcases hnext : cursor.next strings with ⟨fault | _ | token, after⟩
      · rw [walk_of_fault hnext] at hfault
        cases hfault
      · have hend : after.next strings = (.ok none, after) :=
          if_pos (finished_of_end hnext)
        rw [ih (congrArg Walk.fault (walk_of_end hend)), walk_of_end hend, walk_of_end hnext]
        rfl
      · rw [walk_of_token hnext] at hfault
        rw [walk_of_token hnext, ih hfault]
        rfl

end Cursor
end DeviceTree
end FirmwareVariables
