import Mathlib.Data.List.Basic
import Stepwise.Proofs.Substitution

/-!
# Resolving settles

What a placeholder is replaced by is not looked at again, so a second pass may find placeholders
that the first one built. It finds none where every `$` of a text begins a placeholder and no
variable shows one: then the pieces of the result are characters other than `$` and the
placeholders whose variables are not set, and these are replaced by themselves.

* `Template.Clean`: every `$` of a text begins a placeholder.
* `Template.Piece.Settled`, `Template.pieces_flatMap_source`: pieces a text is cut back into.
* `Template.resolve_settles`: resolving twice is resolving once.
-/

namespace Stepwise

/-! ## Texts in changed data -/

namespace Value

variable (f g : String → String)

mutual

theorem texts_mapTexts : ∀ v : Value, (v.mapTexts f).texts = v.texts.map f
  | str s => rfl
  | list items => by
    rw [mapTexts, texts, texts, itemTexts_mapTexts items]
  | dict entries => by
    rw [mapTexts, texts, texts, entryTexts_mapTexts entries]
  | null | bool _ | int _ | float _ => rfl

theorem itemTexts_mapTexts : ∀ items : List Value,
    itemTexts (mapTextsItems f items) = (itemTexts items).map f
  | [] => rfl
  | v :: vs => by
    rw [mapTextsItems, itemTexts, itemTexts, List.map_append, texts_mapTexts v,
      itemTexts_mapTexts vs]

theorem entryTexts_mapTexts : ∀ entries : List (String × Value),
    entryTexts (mapTextsEntries f entries) = (entryTexts entries).map f
  | [] => rfl
  | (name, v) :: rest => by
    rw [mapTextsEntries, entryTexts, entryTexts, List.map_append, texts_mapTexts v,
      entryTexts_mapTexts rest]

end

mutual

/-- Changing texts that stay as they are under the second change. -/
theorem mapTexts_mapTexts : ∀ v : Value, (∀ t ∈ v.texts, g (f t) = f t) →
    (v.mapTexts f).mapTexts g = v.mapTexts f
  | str s, h => congrArg str (h s (List.mem_singleton.mpr rfl))
  | list items, h => by
    rw [mapTexts, mapTexts, mapTextsItems_mapTextsItems items h]
  | dict entries, h => by
    rw [mapTexts, mapTexts, mapTextsEntries_mapTextsEntries entries h]
  | null, _ | bool _, _ | int _, _ | float _, _ => rfl

theorem mapTextsItems_mapTextsItems : ∀ items : List Value, (∀ t ∈ itemTexts items, g (f t) = f t) →
    mapTextsItems g (mapTextsItems f items) = mapTextsItems f items
  | [], _ => rfl
  | v :: vs, h => by
    rw [itemTexts, List.forall_mem_append] at h
    rw [mapTextsItems, mapTextsItems, mapTexts_mapTexts v h.1, mapTextsItems_mapTextsItems vs h.2]

theorem mapTextsEntries_mapTextsEntries : ∀ entries : List (String × Value),
    (∀ t ∈ entryTexts entries, g (f t) = f t) →
    mapTextsEntries g (mapTextsEntries f entries) = mapTextsEntries f entries
  | [], _ => rfl
  | (name, v) :: rest, h => by
    rw [entryTexts, List.forall_mem_append] at h
    rw [mapTextsEntries, mapTextsEntries, mapTexts_mapTexts v h.1,
      mapTextsEntries_mapTextsEntries rest h.2]

end

end Value

namespace Template

/-- Every `$` in the text begins a placeholder. -/
def Clean (cs : List Char) : Prop :=
  ∀ before after, cs = before ++ '$' :: after →
    ∃ name rest, isIdentifierChars name = true ∧ '$' :: after = (Piece.hole name).source ++ rest

/-- No variable is shown with a `$`. -/
def ShowsNoDollar (store : Store) : Prop :=
  ∀ name v, store.get? name = some v → '$' ∉ v.display.toList

/-- A piece that is cut as it is and replaced by itself: a character that begins no placeholder, or
a placeholder whose variable is not set. -/
def Piece.Settled (store : Store) : Piece → Prop
  | char c => c ≠ '$'
  | hole name => isIdentifierChars name = true ∧ store.get? (String.ofList name) = none

/-- The pieces of what a piece is replaced by. -/
def Piece.settle (store : Store) : Piece → List Piece
  | char c => [char c]
  | hole name =>
    match store.get? (String.ofList name) with
    | some v => v.display.toList.map char
    | none => [hole name]

variable {store : Store} {cs : List Char} {p : Piece} {ps : List Piece}

theorem Clean.tail {c : Char} (h : Clean (c :: cs)) : Clean cs := fun before after hcs =>
  h (c :: before) after (by rw [hcs, List.cons_append])

theorem Clean.of_append {before : List Char} (h : Clean (before ++ cs)) : Clean cs := by
  induction before with
  | nil => exact h
  | cons c before ih => exact ih h.tail

theorem Clean.append {ds : List Char} (hds : '$' ∉ ds) (h : Clean cs) : Clean (ds ++ cs) := by
  induction ds with
  | nil => exact h
  | cons d ds ih =>
    rw [List.mem_cons, not_or] at hds
    intro before after hcs
    cases before with
    | nil => exact absurd (List.cons.inj hcs).1.symm hds.1
    | cons c before => exact ih hds.2 before after (List.cons.inj hcs).2

theorem Clean.hole (name : List Char) (hname : isIdentifierChars name = true) (h : Clean cs) :
    Clean ((Piece.hole name).source ++ cs) := by
  intro before after hcs
  cases before with
  | nil => exact ⟨name, cs, hname, hcs.symm⟩
  | cons c before =>
    exact h.append (dollar_notMem_source hname) before after (List.cons.inj hcs).2

/-- The pieces of a clean text. -/
theorem Clean.pieces (h : Clean cs) : ∀ p ∈ pieces cs,
    (∀ c, p = .char c → c ≠ '$') ∧ ∀ name, p = .hole name → isIdentifierChars name = true := by
  fun_induction Template.pieces cs with
  | case1 => exact fun p hp => absurd hp List.not_mem_nil
  | case2 c cs name rest hcut ih =>
    obtain ⟨hname, hcs⟩ := hole?_eq_some_iff.mp hcut
    rw [hcs] at h
    refine List.forall_mem_cons.mpr ⟨⟨fun c hc => ?_, fun n hn => ?_⟩, ih h.of_append⟩
    · cases hc
    · cases hn
      exact hname
  | case3 c cs hcut ih =>
    refine List.forall_mem_cons.mpr ⟨⟨fun d hd => ?_, fun n hn => ?_⟩, ih h.tail⟩
    · cases hd
      rintro rfl
      obtain ⟨name, rest, hcs⟩ := h [] cs rfl
      rw [hole?_eq_some_iff.mpr hcs] at hcut
      cases hcut
    · cases hn

theorem flatMap_source_chars (cs : List Char) : (cs.map Piece.char).flatMap Piece.source = cs := by
  rw [List.flatMap_map]
  exact List.flatMap_singleton' cs

theorem Piece.flatMap_source_settle (p : Piece) :
    (p.settle store).flatMap Piece.source = p.fill store := by
  cases p with
  | char c => rfl
  | hole name =>
    rw [settle, fill]
    cases store.get? (String.ofList name) with
    | some v => exact flatMap_source_chars _
    | none => rw [List.flatMap_singleton]

theorem Piece.Settled.fill_eq (h : p.Settled store) : p.fill store = p.source := by
  cases p with
  | char c => rfl
  | hole name => rw [fill, h.2]

/-- Settled pieces are what the text they make up is cut into. -/
theorem pieces_flatMap_source (h : ∀ p ∈ ps, p.Settled store) :
    pieces (ps.flatMap Piece.source) = ps := by
  induction ps with
  | nil => rw [List.flatMap_nil, pieces]
  | cons p ps ih =>
    obtain ⟨hp, hps⟩ := List.forall_mem_cons.mp h
    rw [List.flatMap_cons]
    cases p with
    | char c =>
      have hcut : hole? (c :: ps.flatMap Piece.source) = none := by
        refine Option.eq_none_iff_forall_not_mem.mpr ?_
        rintro ⟨name, rest⟩ hsome
        exact hp (List.cons.inj (eq_of_hole? hsome)).1
      rw [Piece.source, List.singleton_append, pieces_cons_of_none hcut, ih hps]
    | hole name => rw [pieces_source_append hp.1, ih hps]

/-- What a clean text is filled with makes settled pieces. -/
theorem Clean.settled (h : Clean cs) (hstore : ShowsNoDollar store) :
    ∀ p ∈ (Template.pieces cs).flatMap (Piece.settle store), p.Settled store := by
  intro q hq
  obtain ⟨p, hp, hq⟩ := List.mem_flatMap.mp hq
  obtain ⟨hchar, hname⟩ := h.pieces p hp
  cases p with
  | char c =>
    rw [Piece.settle, List.mem_singleton] at hq
    exact hq ▸ hchar c rfl
  | hole name =>
    rw [Piece.settle] at hq
    split at hq
    · rename_i v hv
      obtain ⟨c, hc, rfl⟩ := List.mem_map.mp hq
      rintro rfl
      exact hstore _ v hv hc
    · rename_i hnone
      rw [List.mem_singleton] at hq
      exact hq ▸ ⟨hname name rfl, hnone⟩

theorem filledText_eq (store : Store) (text : String) :
    filledText store text = String.ofList ((pieces text.toList).flatMap (Piece.fill store)) := by
  rw [filledText, ← Layout.flatMap_fill, ← Layout.pieces_text (Layout.proper_of text),
    Layout.text_of]

/-- Once filled, a clean text is cut into settled pieces. -/
theorem pieces_filledText {text : String} (h : Clean text.toList) (hstore : ShowsNoDollar store) :
    pieces (filledText store text).toList = (pieces text.toList).flatMap (Piece.settle store) := by
  have hsource : (pieces text.toList).flatMap (Piece.fill store) =
      ((pieces text.toList).flatMap (Piece.settle store)).flatMap Piece.source := by
    rw [List.flatMap_assoc]
    exact List.flatMap_congr fun p _ => p.flatMap_source_settle.symm
  rw [filledText_eq, String.toList_ofList, hsource, pieces_flatMap_source (h.settled hstore)]

theorem filledText_filledText {text : String} (h : Clean text.toList)
    (hstore : ShowsNoDollar store) :
    filledText store (filledText store text) = filledText store text := by
  have hpieces := pieces_filledText h hstore
  have hfill : (pieces (filledText store text).toList).flatMap (Piece.fill store) =
      (pieces (filledText store text).toList).flatMap Piece.source := by
    refine List.flatMap_congr fun p hp => (?_ : p.Settled store).fill_eq
    exact h.settled hstore p (hpieces ▸ hp)
  rw [filledText_eq store (filledText store text), hfill, source_pieces, String.ofList_toList]

/-- Where every `$` in the texts of a piece of data begins a placeholder and no variable is shown
with a `$`, resolving the data comes to data that resolving again leaves as it is. The placeholders
that are left in it are those whose variables are not set. -/
theorem resolve_settles {v : Value} (hv : ∀ text ∈ v.texts, Clean text.toList)
    (hstore : ShowsNoDollar store) :
    ∃ w, resolve store .preserve v = .ok w ∧ resolve store .preserve w = .ok w ∧
      ∀ text ∈ w.texts, ∀ name, .hole name ∈ pieces text.toList →
        store.get? (String.ofList name) = none := by
  have hresolve (u : Value) :
      resolve store .preserve u = .ok (u.mapTexts (filledText store)) :=
    resolve_eq store .preserve u
  refine ⟨v.mapTexts (filledText store), hresolve v, ?_, ?_⟩
  · rw [hresolve, Value.mapTexts_mapTexts]
    exact fun text htext => filledText_filledText (hv text htext) hstore
  · rw [Value.texts_mapTexts, List.forall_mem_map]
    intro text htext name hname
    rw [pieces_filledText (hv text htext) hstore] at hname
    exact ((hv text htext).settled hstore _ hname).2

/-- An entry and a list, with a placeholder that is left next to two that are replaced. -/
theorem resolve_settles_kept :
    let store : Store := [("a", .str "\x7ba\x7d"), ("b", .list [.int 1])]
    let v : Value := .dict [("$", .list [.str "$\x7ba\x7d$\x7bc\x7d$\x7bb\x7d", .null])]
    let w : Value := .dict [("$", .list [.str "\x7ba\x7d$\x7bc\x7d[1]", .null])]
    (∀ text ∈ v.texts, Clean text.toList) ∧ ShowsNoDollar store ∧
      resolve store .preserve v = .ok w ∧ resolve store .preserve w = .ok w := by
  intro store v w
  have hv : ∀ text ∈ v.texts, Clean text.toList := by
    have hnil : Clean [] := fun before after h => absurd h (by simp)
    refine List.forall_mem_singleton.mpr ?_
    exact .hole "a".toList rfl (.hole "c".toList rfl (.hole "b".toList rfl hnil))
  have hstore : ShowsNoDollar store := by
    intro name v hv
    simp only [store, Entries.get?] at hv
    split at hv
    · cases hv
      decide
    · split at hv
      · cases hv
        decide
      · cases hv
  obtain ⟨u, hfirst, hsecond, -⟩ := resolve_settles hv hstore
  have hw : resolve store .preserve v = .ok w := by
    have hfill : fill store .preserve "$\x7ba\x7d$\x7bc\x7d$\x7bb\x7d" =
        .ok "\x7ba\x7d$\x7bc\x7d[1]" := by
      decide +kernel
    rw [resolve, resolveEntries, resolve, resolveItems, resolve, hfill]
    rfl
  rw [hw] at hfirst
  cases hfirst
  exact ⟨hv, hstore, hw, hsecond⟩

/-- A `$` in front of a placeholder makes another one with what follows it. -/
example : fill [("a", .str ""), ("b", .int 1)] .preserve "$$\x7ba\x7d\x7bb\x7d" = .ok "$\x7bb\x7d" ∧
    fill [("a", .str ""), ("b", .int 1)] .preserve "$\x7bb\x7d" = .ok "1" := by
  decide +kernel

end Template

end Stepwise
