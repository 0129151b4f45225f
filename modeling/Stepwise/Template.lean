import Stepwise.Store
import Stepwise.Json.Print
import Stepwise.Cause

/-!
# Placeholders

A placeholder `$` `{` name `}` in a text stands for the display form of a variable. A text is cut
into single characters and placeholders in one pass from left to right; what a placeholder is
replaced by is not looked at again.

* `source_pieces`: the pieces of a text make up the text.
* `fill`, `resolve`: the text and the data in which placeholders are replaced.
-/

namespace Stepwise.Template

/-- What happens to a placeholder whose variable is not set. -/
inductive Policy where
  /-- It stays as it is. -/
  | preserve
  /-- It is an error. -/
  | error
deriving Repr, DecidableEq

/-- A part of a text. -/
inductive Piece where
  | char (c : Char)
  | hole (name : List Char)

/-- The text a piece was cut from. -/
def Piece.source : Piece → List Char
  | char c => [c]
  | hole name => '$' :: '\x7b' :: (name ++ ['\x7d'])

/-- The name in a placeholder the text begins with, and what follows it. -/
def hole? : List Char → Option (List Char × List Char)
  | '$' :: '\x7b' :: cs =>
    let name := cs.takeWhile continuesIdentifier
    match cs.dropWhile continuesIdentifier with
    | '\x7d' :: rest => if isIdentifierChars name then some (name, rest) else none
    | _ => none
  | _ => none

theorem eq_of_hole? {cs name rest : List Char} (h : hole? cs = some (name, rest)) :
    cs = (Piece.hole name).source ++ rest := by
  unfold hole? at h
  split at h
  · next cs' =>
    dsimp only at h
    split at h
    · next r hr =>
      split at h
      · cases h
        simp only [Piece.source, List.cons_append, List.append_assoc, List.nil_append,
          List.cons.injEq, true_and]
        rw [← hr, List.takeWhile_append_dropWhile]
      · cases h
    · cases h
  · cases h

/-- Cuts a text into its pieces. -/
def pieces (cs : List Char) : List Piece :=
  match cs with
  | [] => []
  | c :: cs' =>
    match _h : hole? (c :: cs') with
    | some (name, rest) => .hole name :: pieces rest
    | none => .char c :: pieces cs'
termination_by cs.length
decreasing_by
  · have := congrArg List.length (eq_of_hole? _h)
    simp only [List.length_append, Piece.source, List.length_cons] at this
    simp only [List.length_cons]
    omega
  · simp

theorem source_pieces (cs : List Char) : (pieces cs).flatMap Piece.source = cs := by
  fun_induction pieces cs with
  | case1 => rfl
  | case2 c cs' name rest h ih => rw [List.flatMap_cons, ih, ← eq_of_hole? h]
  | case3 c cs' h ih => rw [List.flatMap_cons, ih]; rfl

/-- The text a piece is replaced by. -/
def Piece.fill (store : Store) : Piece → List Char
  | char c => [c]
  | hole name =>
    match store.get? (String.ofList name) with
    | some v => v.display.toList
    | none => (hole name).source

/-- The variable a piece asks for in vain. -/
def Piece.undefined? (store : Store) : Piece → Option String
  | char _ => none
  | hole name =>
    if store.contains (String.ofList name) then none else some (String.ofList name)

/-- The text with its placeholders replaced. -/
def fill (store : Store) (policy : Policy) (text : String) : Except Cause String :=
  let ps := pieces text.toList
  match policy, ps.findSome? (Piece.undefined? store) with
  | .error, some name => .error (.undefinedVariable name)
  | _, _ => .ok (String.ofList (ps.flatMap (Piece.fill store)))

mutual

/-- The data with the placeholders in all its strings replaced; names of entries stay. -/
def resolve (store : Store) (policy : Policy) : Value → Except Cause Value
  | .str s => (fill store policy s).map .str
  | .list items => (resolveItems store policy items).map .list
  | .dict entries => (resolveEntries store policy entries).map .dict
  | v => .ok v

/-- Resolves items in order. -/
def resolveItems (store : Store) (policy : Policy) : List Value → Except Cause (List Value)
  | [] => .ok []
  | v :: vs => do
    let v ← resolve store policy v
    let vs ← resolveItems store policy vs
    return v :: vs

/-- Resolves the values of entries in order. -/
def resolveEntries (store : Store) (policy : Policy) :
    List (String × Value) → Except Cause (List (String × Value))
  | [] => .ok []
  | (name, v) :: rest => do
    let v ← resolve store policy v
    let rest ← resolveEntries store policy rest
    return (name, v) :: rest

end

end Stepwise.Template
