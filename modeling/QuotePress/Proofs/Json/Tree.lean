import QuotePress.Json.Reading
import QuotePress.Proofs.Json.Lexing

/-! # The tree of a written value

The lexemes of a value take a reader from where a value is expected to just after it, with the tree
of the value added to the innermost frame. So the text of a value has its tree and no surplus. -/
namespace QuotePress.Json.Reading

mutual

def ofJson : Json → Reading
  | .null => .atom (.ok .null) none
  | .boolean b => .atom (.ok (.boolean b)) none
  | .integer n => .atom (.ok (.number (.integer n))) none
  | .real x => .atom (.ok (.number (.real x))) none
  | .string s => .string (.ok s) none
  | .array items => .array (ofItems items) none
  | .object members => .object (ofMembers members) none

def ofItems : List Json → List Reading
  | [] => []
  | item :: rest => ofJson item :: ofItems rest

def ofMembers : List (String × Json) → List (Key × Reading)
  | [] => []
  | (key, value) :: rest => (.text (.ok key) none, ofJson value) :: ofMembers rest

end

theorem foldl_first_item (j : Json) (frame : Frame) (frames : List Frame) :
    (lexemes j).foldl State.step (.inside (frame :: frames) .itemOrEnd) =
      (lexemes j).foldl State.step (.inside (frame :: frames) .value) := by
  match j with
  | .null | .boolean _ | .integer _ | .real _ | .string _ => rfl
  | .array [] | .object [] => rfl
  | .array (item :: rest) => rw [lexemes]; rfl
  | .object ((key, value) :: rest) => rw [lexemes]; rfl

mutual

theorem foldl_lexemes (j : Json) (frames : List Frame) :
    (lexemes j).foldl State.step (.inside frames .value) = afterValue (ofJson j) frames := by
  match j with
  | .null | .boolean _ | .integer _ | .real _ | .string _ => rfl
  | .array [] | .object [] => rfl
  | .array (item :: rest) =>
    rw [lexemes, List.cons_append, List.cons_append, List.foldl_cons, List.foldl_append,
      List.foldl_append]
    change List.foldl State.step (List.foldl State.step (List.foldl State.step
      (.inside (.array [] :: frames) .itemOrEnd) _) _) _ = _
    rw [foldl_first_item, foldl_lexemes item, afterValue, Frame.add, foldl_itemLexemes rest]
    change afterValue (.array (List.reverse _) none) frames = _
    rw [List.reverse_append, List.reverse_reverse, ofJson, ofItems]
    rfl
  | .object ((key, value) :: rest) =>
    rw [lexemes, List.cons_append, List.cons_append, List.cons_append, List.cons_append,
      List.cons_append, List.cons_append, List.foldl_cons, List.foldl_cons, List.foldl_cons,
      List.foldl_append, List.foldl_append]
    change List.foldl State.step (List.foldl State.step (List.foldl State.step
      (.inside (.member [] (.text (.ok key) none) :: frames) .value) _) _) _ = _
    rw [foldl_lexemes value, afterValue, Frame.add, foldl_memberLexemes rest]
    change afterValue (.object (List.reverse _) none) frames = _
    rw [List.reverse_append, List.reverse_reverse, ofJson, ofMembers]
    rfl

/-- Further items are put on top of those that were seen. -/
theorem foldl_itemLexemes (items : List Json) (seen : List Reading) (frames : List Frame) :
    (itemLexemes items).foldl State.step (.inside (.array seen :: frames) .separator) =
      .inside (.array ((ofItems items).reverse ++ seen) :: frames) .separator := by
  match items with
  | [] => rfl
  | item :: rest =>
    rw [itemLexemes, List.cons_append, List.foldl_cons, List.foldl_append]
    change List.foldl State.step
      (List.foldl State.step (.inside (.array seen :: frames) .value) _) _ = _
    rw [foldl_lexemes item, afterValue, Frame.add, foldl_itemLexemes rest, ofItems,
      List.reverse_cons, List.append_assoc, List.singleton_append]

theorem foldl_memberLexemes (members : List (String × Json)) (seen : List (Key × Reading))
    (frames : List Frame) :
    (memberLexemes members).foldl State.step (.inside (.object seen :: frames) .separator) =
      .inside (.object ((ofMembers members).reverse ++ seen) :: frames) .separator := by
  match members with
  | [] => rfl
  | (key, value) :: rest =>
    rw [memberLexemes, List.cons_append, List.cons_append, List.cons_append, List.foldl_cons,
      List.foldl_cons, List.foldl_cons, List.foldl_append]
    change List.foldl State.step (List.foldl State.step
      (.inside (.member seen (.text (.ok key) none) :: frames) .value) _) _ = _
    rw [foldl_lexemes value, afterValue, Frame.add, foldl_memberLexemes rest, ofMembers,
      List.reverse_cons, List.append_assoc, List.singleton_append]

end

/-- The text of a value is read as its tree, whichever way it is laid out. -/
theorem ofText_render {j : Json} (h : Legible j) (layout : Layout) :
    ofText (String.ofList (j.render layout)) = (ofJson j, false) := by
  have hlex := lex_render j layout [] h endsNumber_nil
  rw [List.append_nil, lex_nil, List.append_nil] at hlex
  rw [ofText, String.toList_ofList, hlex, foldl_lexemes]
  rfl

end QuotePress.Json.Reading
