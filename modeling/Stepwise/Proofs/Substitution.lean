import Mathlib.Logic.ExistsUnique
import Stepwise.Template

/-!
# One pass over a text

A text falls into literals and the placeholders between them, and that in one way only: no two
placeholders overlap, since a `$` stands nowhere in a placeholder but at its start. Resolving fills
the placeholders of this layout and nothing else; what is filled in is not looked at again, and of
data only the texts in it change.

* `Template.Layout`, `Template.Layout.eq_of`: the one layout of a text.
* `Template.fill_text`: filling a text is filling its layout.
* `Value.texts`, `Value.mapTexts`: the texts in a piece of data, and the data with others for them.
* `Template.resolve_is_one_pass`: texts and data under both policies.
-/

namespace Stepwise

/-! ## Texts in data -/

namespace Value

mutual

/-- The data with a function applied to every text in it. -/
def mapTexts (f : String → String) : Value → Value
  | str s => str (f s)
  | list items => list (mapTextsItems f items)
  | dict entries => dict (mapTextsEntries f entries)
  | v => v

/-- Items with a function applied to every text in them. -/
def mapTextsItems (f : String → String) : List Value → List Value
  | [] => []
  | v :: vs => v.mapTexts f :: mapTextsItems f vs

/-- Entries with a function applied to every text in their values. -/
def mapTextsEntries (f : String → String) : List (String × Value) → List (String × Value)
  | [] => []
  | (name, v) :: rest => (name, v.mapTexts f) :: mapTextsEntries f rest

end

mutual

/-- The texts in a piece of data, from the first to the last. -/
def texts : Value → List String
  | str s => [s]
  | list items => itemTexts items
  | dict entries => entryTexts entries
  | _ => []

/-- The texts in items. -/
def itemTexts : List Value → List String
  | [] => []
  | v :: vs => v.texts ++ itemTexts vs

/-- The texts in the values of entries. -/
def entryTexts : List (String × Value) → List String
  | [] => []
  | (_, v) :: rest => v.texts ++ entryTexts rest

end

theorem mapTexts_list (f : String → String) (items : List Value) :
    (list items).mapTexts f = list (items.map (mapTexts f)) := by
  rw [mapTexts]
  congr 1
  induction items with
  | nil => rfl
  | cons v vs ih => rw [mapTextsItems, ih, List.map_cons]

theorem mapTexts_dict (f : String → String) (entries : List (String × Value)) :
    (dict entries).mapTexts f = dict (entries.map fun entry => (entry.1, entry.2.mapTexts f)) := by
  rw [mapTexts]
  congr 1
  induction entries with
  | nil => rfl
  | cons entry rest ih => rw [mapTextsEntries, ih, List.map_cons]

theorem texts_list (items : List Value) : (list items).texts = items.flatMap texts := by
  rw [texts]
  induction items with
  | nil => rfl
  | cons v vs ih => rw [itemTexts, ih, List.flatMap_cons]

theorem texts_dict (entries : List (String × Value)) :
    (dict entries).texts = entries.flatMap fun entry => entry.2.texts := by
  rw [texts]
  induction entries with
  | nil => rfl
  | cons entry rest ih => rw [entryTexts, ih, List.flatMap_cons]

end Value

namespace Template

/-! ## Placeholders -/

variable {c : Char} {cs name rest : List Char}

theorem all_continuesIdentifier (h : isIdentifierChars name = true) :
    ∀ c ∈ name, continuesIdentifier c = true := by
  cases name with
  | nil => exact fun c hc => absurd hc List.not_mem_nil
  | cons d name =>
    simp only [isIdentifierChars, Bool.and_eq_true, List.all_eq_true] at h
    obtain ⟨hd, hname⟩ := h
    refine List.forall_mem_cons.mpr ⟨?_, hname⟩
    simp only [beginsIdentifier, Bool.or_eq_true] at hd
    simp only [continuesIdentifier, Char.isAlphanum, Bool.or_eq_true]
    exact hd.imp_left .inl

theorem hole?_source_append (h : isIdentifierChars name = true) (rest : List Char) :
    hole? ((Piece.hole name).source ++ rest) = some (name, rest) := by
  have hname := all_continuesIdentifier h
  have htake : (name ++ '\x7d' :: rest).takeWhile continuesIdentifier = name := by
    rw [List.takeWhile_append_of_pos hname, List.takeWhile_cons_of_neg (by decide), List.append_nil]
  have hdrop : (name ++ '\x7d' :: rest).dropWhile continuesIdentifier = '\x7d' :: rest := by
    rw [List.dropWhile_append_of_pos hname, List.dropWhile_cons_of_neg (by decide)]
  simp only [Piece.source, List.cons_append, List.append_assoc, List.nil_append, hole?, htake,
    hdrop, h, if_true]

/-- A text begins with a placeholder that is cut off. -/
theorem hole?_eq_some_iff :
    hole? cs = some (name, rest) ↔
      isIdentifierChars name = true ∧ cs = (Piece.hole name).source ++ rest := by
  refine ⟨fun h => ⟨?_, eq_of_hole? h⟩, fun ⟨h, hcs⟩ => hcs ▸ hole?_source_append h rest⟩
  unfold hole? at h
  split at h
  · dsimp only at h
    split at h
    · split at h
      · rename_i hname
        cases h
        exact hname
      · cases h
    · cases h
  · cases h

/-- The sign a placeholder begins with comes only once in it. -/
theorem dollar_notMem_source (h : isIdentifierChars name = true) :
    '$' ∉ (Piece.hole name).source.tail := by
  have hname : '$' ∉ name := fun hc => absurd (all_continuesIdentifier h _ hc) (by decide)
  simp only [Piece.source, List.tail_cons, List.mem_cons, List.mem_append, List.not_mem_nil,
    or_false, not_or]
  exact ⟨by decide, hname, by decide⟩

/-- A text with no placeholder in it. -/
def Plain (cs : List Char) : Prop :=
  ∀ before name after, isIdentifierChars name = true →
    cs ≠ before ++ (Piece.hole name).source ++ after

/-- A placeholder begins with a dollar sign. -/
theorem plain_of_dollar_notMem (h : '$' ∉ cs) : Plain cs := by
  rintro before name after - rfl
  refine h (List.mem_append_left after (List.mem_append_right before ?_))
  exact List.mem_cons_self

theorem plain_nil : Plain [] := plain_of_dollar_notMem List.not_mem_nil

theorem plain_cons : Plain (c :: cs) ↔ hole? (c :: cs) = none ∧ Plain cs := by
  refine ⟨fun h => ⟨?_, fun before name after hname hcs => ?_⟩, fun ⟨hhead, htail⟩ => ?_⟩
  · refine Option.eq_none_iff_forall_not_mem.mpr fun ⟨name, after⟩ hcut => ?_
    obtain ⟨hname, hcs⟩ := hole?_eq_some_iff.mp hcut
    exact h [] name after hname hcs
  · refine h (c :: before) name after hname ?_
    rw [hcs, List.cons_append, List.cons_append]
  · intro before name after hname hcs
    cases before with
    | nil =>
      have hcut := hole?_eq_some_iff.mpr ⟨hname, hcs⟩
      rw [hhead] at hcut
      cases hcut
    | cons d before =>
      simp only [List.cons_append, List.cons.injEq] at hcs
      exact htail before name after hname hcs.2

/-- No placeholder begins in one text and ends in another that is empty or begins with a
placeholder itself. -/
theorem hole?_append (h : hole? (c :: cs) = none) (hrest : ∀ d ∈ rest.head?, d = '$') :
    hole? (c :: (cs ++ rest)) = none := by
  refine Option.eq_none_iff_forall_not_mem.mpr fun ⟨name, after⟩ hcut => ?_
  obtain ⟨hname, heq⟩ := hole?_eq_some_iff.mp hcut
  have hnone : ∀ after, c :: cs ≠ (Piece.hole name).source ++ after := by
    intro after hcs
    have hsome := hole?_eq_some_iff.mpr ⟨hname, hcs⟩
    rw [h] at hsome
    cases hsome
  rw [← List.cons_append] at heq
  -- A placeholder across the seam would end in the first text, or in the second one.
  rcases List.append_eq_append_iff.mp heq with ⟨tail, hsource, htail⟩ | ⟨after', hcs, -⟩
  · cases tail with
    | nil =>
      refine hnone [] ?_
      rw [hsource, List.append_nil, List.append_nil]
    | cons d tail =>
      -- The placeholder would go on with a dollar sign.
      obtain rfl : d = '$' := hrest d (by rw [htail]; rfl)
      refine dollar_notMem_source hname ?_
      rw [hsource, List.cons_append, List.tail_cons]
      exact List.mem_append_right cs List.mem_cons_self
  · exact hnone after' hcs

theorem pieces_cons_of_none (h : hole? (c :: cs) = none) :
    pieces (c :: cs) = .char c :: pieces cs := by
  rw [pieces]
  split
  · rename_i heq
    rw [h] at heq
    cases heq
  · rfl

theorem pieces_source_append (h : isIdentifierChars name = true) (rest : List Char) :
    pieces ((Piece.hole name).source ++ rest) = .hole name :: pieces rest := by
  have hcut := hole?_source_append h rest
  simp only [Piece.source, List.cons_append] at hcut ⊢
  rw [pieces]
  split
  · rename_i heq
    rw [hcut] at heq
    cases heq
    rfl
  · rename_i heq
    rw [hcut] at heq
    cases heq

theorem pieces_plain_append (h : Plain cs) (hrest : ∀ d ∈ rest.head?, d = '$') :
    pieces (cs ++ rest) = cs.map .char ++ pieces rest := by
  induction cs with
  | nil => rfl
  | cons c cs ih =>
    obtain ⟨hhead, htail⟩ := plain_cons.mp h
    rw [List.cons_append, pieces_cons_of_none (hole?_append hhead hrest), ih htail, List.map_cons,
      List.cons_append]

/-! ## Layouts -/

/-- A text as literals with a placeholder between any two of them. -/
inductive Layout where
  | literal (cs : List Char)
  | hole (cs name : List Char) (rest : Layout)

namespace Layout

/-- The text that is laid out. -/
def text : Layout → List Char
  | literal cs => cs
  | hole cs name rest => cs ++ (Piece.hole name).source ++ rest.text

/-- The names in the placeholders, from the first to the last. -/
def names : Layout → List String
  | literal _ => []
  | hole _ name rest => String.ofList name :: rest.names

/-- The text with the display form of a variable in place of each placeholder. A placeholder whose
variable is not set stays. -/
def filled (store : Store) : Layout → List Char
  | literal cs => cs
  | hole cs name rest =>
    let shown := match store.get? (String.ofList name) with
      | some v => v.display.toList
      | none => (Piece.hole name).source
    cs ++ shown ++ rest.filled store

/-- Names are identifiers, and no literal has a placeholder in it. -/
def Proper : Layout → Prop
  | literal cs => Plain cs
  | hole cs name rest => Plain cs ∧ isIdentifierChars name = true ∧ rest.Proper

/-- The pieces of a layout. -/
def pieces : Layout → List Piece
  | literal cs => cs.map .char
  | hole cs name rest => cs.map .char ++ .hole name :: rest.pieces

/-- A layout with one more character in front. -/
def push (c : Char) : Layout → Layout
  | literal cs => literal (c :: cs)
  | hole cs name rest => hole (c :: cs) name rest

/-- The layout that has these pieces. -/
def ofPieces : List Piece → Layout
  | [] => literal []
  | .char c :: ps => (ofPieces ps).push c
  | .hole name :: ps => hole [] name (ofPieces ps)

/-- The layout of a text. -/
def of (text : String) : Layout := ofPieces (Template.pieces text.toList)

theorem ofPieces_chars (cs : List Char) (ps : List Piece) :
    ofPieces (cs.map .char ++ ps) = cs.foldr push (ofPieces ps) := by
  induction cs with
  | nil => rfl
  | cons c cs ih => rw [List.map_cons, List.cons_append, ofPieces, ih, List.foldr_cons]

theorem foldr_push_literal (cs ds : List Char) :
    cs.foldr push (literal ds) = literal (cs ++ ds) := by
  induction cs with
  | nil => rfl
  | cons c cs ih => rw [List.foldr_cons, ih, push, List.cons_append]

theorem foldr_push_hole (cs ds name : List Char) (rest : Layout) :
    cs.foldr push (hole ds name rest) = hole (cs ++ ds) name rest := by
  induction cs with
  | nil => rfl
  | cons c cs ih => rw [List.foldr_cons, ih, push, List.cons_append]

theorem ofPieces_pieces (l : Layout) : ofPieces l.pieces = l := by
  induction l with
  | literal cs =>
    rw [pieces, ← List.append_nil (cs.map _), ofPieces_chars, ofPieces, foldr_push_literal,
      List.append_nil]
  | hole cs name rest ih =>
    rw [pieces, ofPieces_chars, ofPieces, ih, foldr_push_hole, List.append_nil]

theorem text_push (c : Char) (l : Layout) : (l.push c).text = c :: l.text := by
  cases l with
  | literal cs => rfl
  | hole cs name rest => rfl

theorem text_ofPieces (ps : List Piece) : (ofPieces ps).text = ps.flatMap Piece.source := by
  induction ps with
  | nil => rfl
  | cons p ps ih =>
    cases p with
    | char c => rw [ofPieces, text_push, ih, List.flatMap_cons]; rfl
    | hole name => rw [ofPieces, text, ih, List.flatMap_cons, List.nil_append]

theorem text_of (text : String) : (of text).text = text.toList := by
  rw [of, text_ofPieces, source_pieces]

/-- A character that begins no placeholder goes to the first literal. -/
theorem Proper.push {l : Layout} (h : l.Proper) (hc : hole? (c :: l.text) = none) :
    (l.push c).Proper := by
  have hplain {cs after : List Char} (hcs : Plain cs) (hc : hole? (c :: (cs ++ after)) = none) :
      Plain (c :: cs) := by
    refine plain_cons.mpr ⟨?_, hcs⟩
    refine Option.eq_none_iff_forall_not_mem.mpr fun ⟨name, rest⟩ hcut => ?_
    obtain ⟨hname, heq⟩ := hole?_eq_some_iff.mp hcut
    have hsome : hole? (c :: (cs ++ after)) = some (name, rest ++ after) := by
      refine hole?_eq_some_iff.mpr ⟨hname, ?_⟩
      rw [← List.cons_append, heq, List.append_assoc]
    rw [hc] at hsome
    cases hsome
  cases l with
  | literal cs => exact hplain h (by rwa [List.append_nil])
  | hole cs name rest =>
    rw [text, List.append_assoc] at hc
    exact ⟨hplain h.1 hc, h.2⟩

theorem proper_of (text : String) : (of text).Proper := by
  suffices h : ∀ cs, (ofPieces (Template.pieces cs)).Proper from h text.toList
  intro cs
  fun_induction Template.pieces cs with
  | case1 => exact plain_nil
  | case2 c cs name rest hcut ih => exact ⟨plain_nil, (hole?_eq_some_iff.mp hcut).1, ih⟩
  | case3 c cs hcut ih =>
    refine ih.push ?_
    rwa [text_ofPieces, source_pieces]

/-- A text is cut as it is laid out. -/
theorem pieces_text {l : Layout} (h : l.Proper) : Template.pieces l.text = l.pieces := by
  induction l with
  | literal cs =>
    have hend : ∀ d ∈ ([] : List Char).head?, d = '$' := fun d hd => nomatch hd
    have hcs := pieces_plain_append h hend
    rw [List.append_nil] at hcs
    rw [text, hcs, pieces, Template.pieces, List.append_nil]
  | hole cs name rest ih =>
    obtain ⟨hcs, hname, hrest⟩ := h
    have hhead : ∀ d ∈ ((Piece.hole name).source ++ rest.text).head?, d = '$' := by
      intro d hd
      cases hd
      rfl
    rw [text, List.append_assoc, pieces_plain_append hcs hhead, pieces_source_append hname,
      ih hrest, pieces]

/-- There is one layout of a text. -/
theorem eq_of {l : Layout} {text : String} (h : l.Proper) (ht : l.text = text.toList) :
    l = of text := by
  rw [of, ← ht, pieces_text h, ofPieces_pieces]

theorem flatMap_fill (store : Store) (l : Layout) :
    l.pieces.flatMap (Piece.fill store) = l.filled store := by
  have hchars (cs : List Char) : (cs.map Piece.char).flatMap (Piece.fill store) = cs := by
    rw [List.flatMap_map]
    exact List.flatMap_singleton' cs
  induction l with
  | literal cs => rw [pieces, hchars, filled]
  | hole cs name rest ih =>
    rw [pieces, List.flatMap_append, hchars, List.flatMap_cons, ih, filled, List.append_assoc]
    rfl

end Layout

/-! ## Resolving -/

/-- The first of the names that is not set. -/
def missing? (store : Store) (names : List String) : Option String :=
  names.find? fun name => !store.contains name

theorem missing?_append (store : Store) (names others : List String) :
    missing? store (names ++ others) = (missing? store names).or (missing? store others) :=
  List.find?_append

theorem Layout.findSome?_undefined? (store : Store) (l : Layout) :
    l.pieces.findSome? (Piece.undefined? store) = missing? store l.names := by
  have hchars (cs : List Char) :
      (cs.map Piece.char).findSome? (Piece.undefined? store) = none := by
    simp only [List.findSome?_eq_none_iff, List.mem_map]
    rintro _ ⟨c, -, rfl⟩
    rfl
  induction l with
  | literal cs => rw [pieces, hchars]; rfl
  | hole cs name rest ih =>
    rw [pieces, List.findSome?_append, hchars, Option.none_or, List.findSome?_cons, ih, names]
    simp only [missing?, List.find?_cons, Piece.undefined?]
    cases store.contains (String.ofList name) with
    | true => rfl
    | false => rfl

/-- `x`, unless a name was missed and that is an error. -/
def unlessMissed {α : Type} (policy : Policy) (missed : Option String) (x : α) : Except Cause α :=
  match policy, missed with
  | .error, some name => .error (.undefinedVariable name)
  | _, _ => .ok x

section Missed

variable {α β γ : Type} {policy : Policy}

theorem unlessMissed_map (missed : Option String) (f : α → β) (x : α) :
    (unlessMissed policy missed x).map f = unlessMissed policy missed (f x) := by
  unfold unlessMissed
  split
  · rfl
  · rfl

/-- What is missed first counts. -/
theorem unlessMissed_bind (missed missed' : Option String) (f : α → β → γ) (x : α) (y : β) :
    (do
      let a ← unlessMissed policy missed x
      let b ← unlessMissed policy missed' y
      return f a b) = unlessMissed policy (missed.or missed') (f x y) := by
  cases policy with
  | preserve => rfl
  | error =>
    cases missed with
    | none =>
      cases missed' with
      | none => rfl
      | some name => rfl
    | some name => rfl

end Missed

variable (store : Store)

/-- Filling a text is filling its layout. -/
theorem fill_text (policy : Policy) {l : Layout} (h : l.Proper) :
    fill store policy (String.ofList l.text) =
      unlessMissed policy (missing? store l.names) (String.ofList (l.filled store)) := by
  show unlessMissed policy ((pieces (String.ofList l.text).toList).findSome? _)
    (String.ofList ((pieces (String.ofList l.text).toList).flatMap _)) = _
  rw [String.toList_ofList, Layout.pieces_text h, Layout.flatMap_fill,
    Layout.findSome?_undefined?]

/-- The text with its placeholders filled. -/
def filledText (text : String) : String := String.ofList ((Layout.of text).filled store)

/-- The names in the placeholders of texts, from the first to the last. -/
def namesIn (texts : List String) : List String := texts.flatMap fun text => (Layout.of text).names

theorem fill_eq (policy : Policy) (text : String) :
    fill store policy text =
      unlessMissed policy (missing? store (namesIn [text])) (filledText store text) := by
  have h := fill_text store policy (Layout.proper_of text)
  rw [Layout.text_of, String.ofList_toList] at h
  rw [h, namesIn, List.flatMap_singleton]
  rfl

/-- A text with no placeholder in it is filled as it is. -/
theorem fill_plain (policy : Policy) {text : String} (h : Plain text.toList) :
    fill store policy text = .ok text := by
  have hfill := fill_text store policy (l := .literal text.toList) h
  rw [Layout.text, String.ofList_toList] at hfill
  rw [hfill]
  cases policy with
  | preserve => exact congrArg Except.ok String.ofList_toList
  | error => exact congrArg Except.ok String.ofList_toList

theorem resolve_str_plain (policy : Policy) {text : String} (h : Plain text.toList) :
    resolve store policy (.str text) = .ok (.str text) := by
  rw [resolve, fill_plain store policy h]
  rfl

/-- A list of texts with no placeholder in them is resolved as it is. -/
theorem resolve_list_plain (policy : Policy) {texts : List String}
    (h : ∀ text ∈ texts, Plain text.toList) :
    resolve store policy (.list (texts.map .str)) = .ok (.list (texts.map .str)) := by
  have hitems : resolveItems store policy (texts.map .str) = .ok (texts.map .str) := by
    induction texts with
    | nil => rfl
    | cons text texts ih =>
      obtain ⟨htext, htexts⟩ := List.forall_mem_cons.mp h
      rw [List.map_cons, resolveItems, resolve_str_plain store policy htext, ih htexts]
      rfl
  rw [resolve, hitems]
  rfl

/-- No identifier holds a placeholder. -/
theorem plain_of_isIdentifier {name : String} (h : isIdentifier name = true) :
    Plain name.toList := by
  refine plain_of_dollar_notMem fun hc => ?_
  exact absurd (all_continuesIdentifier h _ hc) (by decide)

theorem missing?_namesIn_append (texts others : List String) :
    missing? store (namesIn (texts ++ others)) =
      (missing? store (namesIn texts)).or (missing? store (namesIn others)) := by
  rw [namesIn, List.flatMap_append, missing?_append]
  rfl

mutual

/-- Resolving data is filling the texts in it. -/
theorem resolve_eq (policy : Policy) : ∀ v : Value,
    resolve store policy v =
      unlessMissed policy (missing? store (namesIn v.texts)) (v.mapTexts (filledText store))
  | .str s => by
    rw [resolve, fill_eq, unlessMissed_map]
    rfl
  | .list items => by
    rw [resolve, resolveItems_eq policy items, unlessMissed_map, Value.texts_list,
      Value.mapTexts_list]
  | .dict entries => by
    rw [resolve, resolveEntries_eq policy entries, unlessMissed_map, Value.texts_dict,
      Value.mapTexts_dict]
  | .null | .bool _ | .int _ | .float _ => by
    cases policy with
    | preserve => rfl
    | error => rfl

theorem resolveItems_eq (policy : Policy) : ∀ vs : List Value,
    resolveItems store policy vs =
      unlessMissed policy (missing? store (namesIn (vs.flatMap Value.texts)))
        (vs.map (Value.mapTexts (filledText store)))
  | [] => by
    cases policy with
    | preserve => rfl
    | error => rfl
  | v :: vs => by
    rw [resolveItems, resolve_eq policy v, resolveItems_eq policy vs, unlessMissed_bind,
      List.flatMap_cons, missing?_namesIn_append, List.map_cons]

theorem resolveEntries_eq (policy : Policy) : ∀ entries : List (String × Value),
    resolveEntries store policy entries =
      unlessMissed policy
        (missing? store (namesIn (entries.flatMap fun entry => entry.2.texts)))
        (entries.map fun entry => (entry.1, entry.2.mapTexts (filledText store)))
  | [] => by
    cases policy with
    | preserve => rfl
    | error => rfl
  | (name, v) :: rest => by
    rw [resolveEntries, resolve_eq policy v, resolveEntries_eq policy rest,
      unlessMissed_bind _ _ fun v rest => (name, v) :: rest, List.flatMap_cons,
      missing?_namesIn_append, List.map_cons]

end

/-- A text is laid out in one way only. Resolving it fills the placeholders of this layout, each
with the display form of its variable as it is, and under the strict policy it fails with the first
name that is not set, if there is one. Of data it resolves the texts, and nothing else changes; the
first name that is not set is that of the first text with one. -/
theorem resolve_is_one_pass :
    (∀ text : String, ∃! l : Layout, l.Proper ∧ l.text = text.toList) ∧
    (∀ l : Layout, l.Proper →
      fill store .preserve (String.ofList l.text) = .ok (String.ofList (l.filled store)) ∧
      fill store .error (String.ofList l.text) =
        match l.names.find? fun name => !store.contains name with
        | none => .ok (String.ofList (l.filled store))
        | some name => .error (.undefinedVariable name)) ∧
    ∀ v : Value,
      resolve store .preserve v = .ok (v.mapTexts (filledText store)) ∧
      resolve store .error v =
        match (namesIn v.texts).find? fun name => !store.contains name with
        | none => .ok (v.mapTexts (filledText store))
        | some name => .error (.undefinedVariable name) := by
  have hmissed {α : Type} (missed : Option String) (x : α) : unlessMissed .error missed x =
      match missed with
      | none => .ok x
      | some name => .error (.undefinedVariable name) := by
    cases missed with
    | none => rfl
    | some name => rfl
  refine ⟨fun text => ⟨.of text, ⟨Layout.proper_of text, Layout.text_of text⟩, ?_⟩, ?_, ?_⟩
  · rintro l ⟨hl, ht⟩
    exact Layout.eq_of hl ht
  · intro l hl
    exact ⟨fill_text store .preserve hl, (fill_text store .error hl).trans (hmissed _ _)⟩
  · intro v
    exact ⟨resolve_eq store .preserve v, (resolve_eq store .error v).trans (hmissed _ _)⟩

/-- What begins a placeholder and does not end it goes to the literal in front of the next one, and
what is filled in stays, even if it is a placeholder itself. -/
theorem resolve_is_one_pass_unclosed :
    let l : Layout := .hole "$\x7ba".toList "b".toList (.literal "\x7d".toList)
    let store : Store := [("a", .int 1), ("b", .str "$\x7ba\x7d")]
    l.Proper ∧ String.ofList l.text = "$\x7ba$\x7bb\x7d\x7d" ∧
      fill store .preserve "$\x7ba$\x7bb\x7d\x7d" = .ok "$\x7ba$\x7ba\x7d\x7d" ∧
      fill [] .error "$\x7ba$\x7bb\x7d\x7d" = .error (.undefinedVariable "b") := by
  intro l store
  have hunclosed : Plain "$\x7ba".toList :=
    plain_cons.mpr ⟨by decide, plain_of_dollar_notMem (by decide)⟩
  have hproper : l.Proper := ⟨hunclosed, by decide, plain_of_dollar_notMem (by decide)⟩
  exact ⟨hproper, rfl, ((resolve_is_one_pass store).2.1 l hproper).1,
    ((resolve_is_one_pass []).2.1 l hproper).2⟩

end Template

end Stepwise
