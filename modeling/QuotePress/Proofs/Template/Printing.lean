import QuotePress.Proofs.Template.Forest
import QuotePress.Proofs.Template.Seams
import QuotePress.Proofs.Template.Tags

/-! # Printing a template back

The nodes of a template hold all of its text but the gaps in the openings of its blocks. Texts that
differ in these gaps only are read as the same nodes. -/
namespace QuotePress

open Token (scan Settled joined)

namespace Node

mutual

def print : Node → String
  | .text run => run
  | .variable name => variableTag name
  | .block kind name body => kind.enclose name (printAll body)

def printAll : List Node → String
  | [] => ""
  | node :: rest => print node ++ printAll rest

end

/-- The text holds the nodes one behind the other, with any gap in the opening of a block. -/
inductive Written : List Node → String → Prop where
  | nil : Written [] ""
  | text {run s : String} {nodes : List Node} (h : Written nodes s) :
      Written (.text run :: nodes) (run ++ s)
  | substitution {name s : String} {nodes : List Node} (h : Written nodes s) :
      Written (.variable name :: nodes) (variableTag name ++ s)
  | block {kind : BlockKind} {name gap inner s : String} {body nodes : List Node} (hgap : IsGap gap)
      (hbody : Written body inner) (h : Written nodes s) :
      Written (.block kind name body :: nodes)
        (kind.openTag gap name ++ inner ++ kind.closeTag ++ s)

theorem written_printAll (nodes : List Node) : Written nodes (printAll nodes) := by
  induction nodes using forest_induction with
  | nil => exact .nil
  | text run rest ih => exact ih.text
  | substitution name rest ih => exact ih.substitution
  | block kind name body rest ihBody ih => exact .block isGap_space ihBody ih

theorem written_consText {run s : String} {nodes : List Node} :
    Written (consText run nodes) s ↔ ∃ t, s = run ++ t ∧ Written nodes t := by
  fun_cases consText run nodes with
  | case1 next rest =>
    constructor
    · rintro (_ | h | _)
      exact ⟨_, String.append_assoc .., h.text⟩
    · rintro ⟨t, rfl, h⟩
      cases h with
      | text h =>
        rw [← String.append_assoc]
        exact h.text
  | case2 =>
    constructor
    · rintro (_ | h | _)
      exact ⟨_, rfl, h⟩
    · rintro ⟨t, rfl, h⟩
      exact h.text

theorem written_variable {name s : String} {nodes : List Node} :
    Written (.variable name :: nodes) s ↔ ∃ t, s = variableTag name ++ t ∧ Written nodes t := by
  constructor
  · rintro (_ | _ | h)
    exact ⟨_, rfl, h⟩
  · rintro ⟨t, rfl, h⟩
    exact h.substitution

theorem written_cons {s : String} {node : Node} {nodes : List Node} :
    Written (node :: nodes) s ↔ ∃ a b, s = a ++ b ∧ Written [node] a ∧ Written nodes b := by
  constructor
  · intro h
    cases h with
    | text h => exact ⟨_, _, rfl, by simpa using Written.nil.text, h⟩
    | substitution h => exact ⟨_, _, rfl, by simpa using Written.nil.substitution, h⟩
    | block hgap hbody h => exact ⟨_, _, rfl, by simpa using Written.block hgap hbody .nil, h⟩
  · rintro ⟨a, b, rfl, ha, hb⟩
    cases ha with
    | text hnil =>
      cases hnil
      rw [String.append_empty]
      exact hb.text
    | substitution hnil =>
      cases hnil
      rw [String.append_empty]
      exact hb.substitution
    | block hgap hbody hnil =>
      cases hnil
      rw [String.append_empty]
      exact .block hgap hbody hb

theorem written_splice {s : String} {nodes after : List Node} :
    Written (splice nodes after) s ↔ ∃ a b, s = a ++ b ∧ Written nodes a ∧ Written after b := by
  fun_induction splice nodes after generalizing s with
  | case1 after =>
    constructor
    · intro h
      exact ⟨"", s, String.empty_append.symm, .nil, h⟩
    · rintro ⟨a, b, rfl, ha, hb⟩
      cases ha
      rwa [String.empty_append]
  | case2 run after =>
    rw [written_consText]
    constructor
    · rintro ⟨b, rfl, hb⟩
      exact ⟨run ++ "", b, by rw [String.append_empty], Written.nil.text, hb⟩
    · rintro ⟨a, b, rfl, ha, hb⟩
      cases ha with
      | text hnil =>
        cases hnil
        exact ⟨b, by rw [String.append_empty], hb⟩
  | case3 node rest after hlast ih =>
    rw [written_cons]
    constructor
    · rintro ⟨a, b, rfl, ha, hb⟩
      obtain ⟨c, d, rfl, hc, hd⟩ := ih.1 hb
      exact ⟨a ++ c, d, (String.append_assoc ..).symm, written_cons.2 ⟨a, c, rfl, ha, hc⟩, hd⟩
    · rintro ⟨a, b, rfl, ha, hb⟩
      obtain ⟨c, d, rfl, hc, hd⟩ := written_cons.1 ha
      exact ⟨c, d ++ b, String.append_assoc .., hc, ih.2 ⟨d, b, rfl, hd, hb⟩⟩

end Node

namespace Token

/-- Two tokens that stand for the same; a directive may be spelled otherwise and elsewhere. -/
inductive Alike : Token → Token → Prop where
  | text (run : String) : Alike (.text run) (.text run)
  | directive {meaning : Directive} {raw spelled : String} {offset place : Nat}
      (h : meaning.Written spelled.toList) :
      Alike (.directive meaning raw offset) (.directive meaning spelled place)

theorem Sound.alike {t : Token} (h : t.Sound) : Alike t t := by
  cases t with
  | text run => exact .text run
  | directive meaning raw offset => exact .directive h

theorem Sound.raw_ne_empty {t : Token} (h : t.Sound) : t.raw ≠ "" := by
  cases t with
  | text run => exact h.1
  | directive meaning raw offset =>
    rintro rfl
    obtain ⟨inner, -, hraw⟩ := h
    cases hraw

theorem Alike.isText {s t : Token} (h : Alike s t) : t.isText = s.isText := by
  cases h <;> rfl

theorem Settled.alike {tokens spelled : List Token} (h : Settled tokens)
    (halike : List.Forall₂ Alike tokens spelled) : Settled spelled := by
  induction halike with
  | nil => exact h
  | cons hfirst hrest ih =>
    have htail := ih h.tail
    refine ⟨?_, List.isChain_cons.2 ⟨?_, htail.apart⟩⟩
    · intro t ht
      rcases List.mem_cons.1 ht with rfl | ht
      · cases hfirst with
        | text run => exact h.sound _ List.mem_cons_self
        | directive hraw => exact hraw
      · exact htail.sound t ht
    · rintro next hnext ⟨htext, hnextText⟩
      cases hrest with
      | nil => cases hnext
      | cons hsecond _ =>
        cases hnext
        rw [hfirst.isText] at htext
        rw [hsecond.isText] at hnextText
        exact (List.isChain_cons.1 h.apart).1 _ rfl ⟨htext, hnextText⟩

end Token

/-- Where a reading stops, it stops at tokens that stand for the same. -/
theorem Node.Stop.alike {awaited : Option BlockKind} {opened : List BlockKind} {closed : Bool}
    {tail rest more : List Token} (h : Stop awaited opened tail closed rest)
    (halike : List.Forall₂ Token.Alike tail more) :
    ∃ left, Stop awaited opened more closed left := by
  cases h with
  | ended =>
    cases halike
    exact ⟨[], .ended⟩
  | own h =>
    cases halike with
    | cons hfirst hrest =>
      cases hfirst
      exact ⟨_, .own h⟩
  | outer h hmem =>
    cases halike with
    | cons hfirst hrest =>
      cases hfirst
      exact ⟨_, .outer h hmem⟩

namespace Node

/-- A reading can be told from its nodes. The tokens taken hold them; and every text that holds them
is of tokens that stand for the same, read as these nodes in front of what stops the reading. -/
def Retold (awaited : Option BlockKind) (opened : List BlockKind) (tokens : List Token) : Prop :=
  ∃ taken tail, tokens = taken ++ tail ∧
    Stop awaited opened tail (read awaited opened tokens).closed
      (read awaited opened tokens).rest ∧
    Written (read awaited opened tokens).nodes (joined taken) ∧
    ∀ s, Written (read awaited opened tokens).nodes s →
      ∃ spelled, List.Forall₂ Token.Alike taken spelled ∧ joined spelled = s ∧
        ∀ more, List.Forall₂ Token.Alike tail more → ∃ left found,
          Stop awaited opened more (read awaited opened tokens).closed left ∧
          read awaited opened (spelled ++ more) =
            ⟨(read awaited opened tokens).nodes, found, (read awaited opened tokens).closed, left⟩

variable {awaited : Option BlockKind} {opened : List BlockKind} {tokens rest : List Token}

theorem Retold.stopped {closed : Bool} {left : List Token}
    (h : Stop awaited opened tokens closed left) : Retold awaited opened tokens := by
  rw [Retold, h.read]
  refine ⟨[], tokens, rfl, h, .nil, ?_⟩
  intro s hs
  cases hs
  refine ⟨[], .nil, rfl, ?_⟩
  intro more hmore
  obtain ⟨next, hnext⟩ := h.alike hmore
  exact ⟨next, [], hnext, hnext.read⟩

theorem Retold.kept {t : Token} (ht : t.Sound) {place : List Node → List Node}
    (hplace : ∀ nodes s, Written (place nodes) s ↔
      ∃ after, s = t.raw ++ after ∧ Written nodes after)
    (hread : ∀ rest, ∃ found, read awaited opened (t :: rest) =
      { read awaited opened rest with
        nodes := place (read awaited opened rest).nodes
        findings := found })
    (h : Retold awaited opened rest) : Retold awaited opened (t :: rest) := by
  obtain ⟨taken, tail, hsplit, hstop, hwritten, hretold⟩ := h
  obtain ⟨found, hfirst⟩ := hread rest
  rw [Retold, hfirst]
  refine ⟨t :: taken, tail, congrArg _ hsplit, hstop,
    (hplace _ _).2 ⟨_, Token.joined_cons .., hwritten⟩, ?_⟩
  intro s hs
  obtain ⟨after, rfl, hafter⟩ := (hplace _ _).1 hs
  obtain ⟨spelled, halike, rfl, hmore⟩ := hretold after hafter
  refine ⟨t :: spelled, .cons ht.alike halike, Token.joined_cons .., ?_⟩
  intro more hsame
  obtain ⟨left, other, hleft, hspelled⟩ := hmore more hsame
  obtain ⟨next, hnext⟩ := hread (spelled ++ more)
  exact ⟨left, next, hleft, by rw [List.cons_append, hnext, hspelled]⟩

/-- An opening with its closing is a block of what stands between them. -/
theorem Retold.block {kind : BlockKind} {name raw : String} {offset : Nat}
    (hdepth : ¬ opened.length ≥ maxNesting)
    (hclosed : (read (some kind) (kind :: opened) rest).closed = true)
    (hsound : ∀ t ∈ .directive (.opening kind name) raw offset :: rest, t.Sound)
    (hbody : Retold (some kind) (kind :: opened) rest)
    (hafter : Retold awaited opened (read (some kind) (kind :: opened) rest).rest) :
    Retold awaited opened (.directive (.opening kind name) raw offset :: rest) := by
  obtain ⟨ht, hrest⟩ := List.forall_mem_cons.1 hsound
  obtain ⟨hname, given, hgiven, rfl⟩ := Directive.written_opening_iff.1 ht
  obtain ⟨inner, close, hsplit, hown, hinner, hbody⟩ := hbody
  rw [Retold, read_closed hdepth hclosed]
  rw [hclosed] at hown hbody
  generalize read (some kind) (kind :: opened) rest = body at *
  cases hown with
  | @own _ rawClose offsetClose _ hkind =>
    cases hkind
    subst hsplit
    have hclose := (List.forall_mem_cons.1 (List.forall_mem_append.1 hrest).2).1
    obtain rfl := Directive.written_closing_iff.1 hclose
    obtain ⟨taken, tail, hsplit, hstop, htaken, hafter⟩ := hafter
    refine ⟨.directive (.opening kind name) (kind.openTag given name) offset ::
      (inner ++ .directive (.closing kind) kind.closeTag offsetClose :: taken), tail, ?_, hstop,
      ?_, ?_⟩
    · rw [hsplit, List.cons_append, List.append_assoc, List.cons_append]
    · simp only [Token.joined_cons, Token.joined_append, Token.raw]
      rw [← String.append_assoc, ← String.append_assoc]
      exact .block hgiven hinner htaken
    intro s hs
    cases hs with
    | @block _ _ gap _ _ _ _ hgap hbodyText hafterText =>
      obtain ⟨spelledBody, halikeBody, rfl, hmoreBody⟩ := hbody _ hbodyText
      obtain ⟨spelled, halike, rfl, hmore⟩ := hafter _ hafterText
      have hopening : (Directive.opening kind name).Written (kind.openTag gap name).toList :=
        Directive.written_opening_iff.2 ⟨hname, gap, hgap, rfl⟩
      have hclosing : Token.Alike (.directive (.closing kind) kind.closeTag offsetClose)
          (.directive (.closing kind) kind.closeTag offsetClose) := hclose.alike
      refine ⟨.directive (.opening kind name) (kind.openTag gap name) offset ::
        (spelledBody ++ .directive (.closing kind) kind.closeTag offsetClose :: spelled),
        .cons (.directive hopening) (List.rel_append halikeBody (.cons hclosing halike)), ?_, ?_⟩
      · simp only [Token.joined_cons, Token.joined_append, Token.raw, String.append_assoc]
      intro more hsame
      obtain ⟨left, found, hleft, hspelled⟩ := hmore more hsame
      have hrestAlike : List.Forall₂ Token.Alike body.rest (spelled ++ more) :=
        hsplit ▸ List.rel_append halike hsame
      obtain ⟨next, other, hnext, hspelledBody⟩ := hmoreBody _ (.cons hclosing hrestAlike)
      cases hnext with
      | own _ =>
        refine ⟨left, other ++ found, hleft, ?_⟩
        rw [List.cons_append, List.append_assoc, List.cons_append,
          read_closed hdepth (by rw [hspelledBody]), hspelledBody]
        dsimp only
        rw [hspelled]

/-- An opening without a closing is a text in front of what follows it. -/
theorem Retold.dissolved {kind : BlockKind} {name raw : String} {offset : Nat}
    (hdepth : ¬ opened.length ≥ maxNesting)
    (hclosed : (read (some kind) (kind :: opened) rest).closed = false)
    (hsound : Token.Sound (.directive (.opening kind name) raw offset))
    (hbody : Retold (some kind) (kind :: opened) rest)
    (hafter : Retold awaited opened (read (some kind) (kind :: opened) rest).rest) :
    Retold awaited opened (.directive (.opening kind name) raw offset :: rest) := by
  obtain ⟨inner, close, hsplit, houter, hinner, hbody⟩ := hbody
  rw [Retold, read_unclosed hdepth hclosed]
  rw [hclosed] at houter hbody
  generalize read (some kind) (kind :: opened) rest = body at *
  obtain rfl := houter.unclosed
  subst hsplit
  obtain ⟨taken, tail, hsplit, hstop, htaken, hafter⟩ := hafter
  refine ⟨.directive (.opening kind name) raw offset :: (inner ++ taken), tail, ?_, hstop, ?_, ?_⟩
  · rw [List.cons_append, List.append_assoc, ← hsplit]
  · simp only [Token.joined_cons, Token.joined_append, Token.raw]
    exact written_consText.2 ⟨_, rfl, written_splice.2 ⟨_, _, rfl, hinner, htaken⟩⟩
  intro s hs
  obtain ⟨text, rfl, htext⟩ := written_consText.1 hs
  obtain ⟨a, b, rfl, ha, hb⟩ := written_splice.1 htext
  obtain ⟨spelledBody, halikeBody, rfl, hmoreBody⟩ := hbody _ ha
  obtain ⟨spelled, halike, rfl, hmore⟩ := hafter _ hb
  refine ⟨.directive (.opening kind name) raw offset :: (spelledBody ++ spelled),
    .cons hsound.alike (List.rel_append halikeBody halike), ?_, ?_⟩
  · simp only [Token.joined_cons, Token.joined_append, Token.raw]
  intro more hsame
  obtain ⟨left, found, hleft, hspelled⟩ := hmore more hsame
  have hrestAlike : List.Forall₂ Token.Alike body.rest (spelled ++ more) :=
    hsplit ▸ List.rel_append halike hsame
  obtain ⟨next, other, hnext, hspelledBody⟩ := hmoreBody _ hrestAlike
  obtain rfl := hnext.unclosed
  refine ⟨left, ⟨.unclosed, offset, raw⟩ :: (other ++ found), hleft, ?_⟩
  rw [List.cons_append, List.append_assoc, read_unclosed hdepth (by rw [hspelledBody]),
    hspelledBody]
  dsimp only
  rw [hspelled]

theorem sound_rest (awaited : Option BlockKind) (opened : List BlockKind) {tokens : List Token}
    (h : ∀ t ∈ tokens, t.Sound) : ∀ t ∈ (read awaited opened tokens).rest, t.Sound := by
  obtain ⟨taken, hsplit, -⟩ := read_places awaited opened tokens
  intro t ht
  refine h t ?_
  rw [hsplit]
  exact List.mem_append_right _ ht

theorem retold_read (awaited : Option BlockKind) (opened : List BlockKind) (tokens : List Token)
    (hsound : ∀ t ∈ tokens, t.Sound) : Retold awaited opened tokens := by
  induction awaited, opened, tokens using read_induction with
  | nil awaited opened => exact .stopped .ended
  | text awaited opened run rest ih =>
    obtain ⟨ht, hrest⟩ := List.forall_mem_cons.1 hsound
    exact .kept ht (fun _ _ => written_consText)
      (fun rest => ⟨(read awaited opened rest).findings, read_text⟩) (ih hrest)
  | substitution awaited opened name raw offset rest ih =>
    obtain ⟨ht, hrest⟩ := List.forall_mem_cons.1 hsound
    obtain rfl : raw = variableTag name := (Directive.written_variable_iff.1 ht).2
    exact .kept ht (fun _ _ => written_variable) (fun rest => ⟨_, read_variable⟩) (ih hrest)
  | deep awaited opened kind name raw offset rest h ih =>
    obtain ⟨ht, hrest⟩ := List.forall_mem_cons.1 hsound
    exact .kept ht (fun _ _ => written_consText) (fun rest => ⟨_, read_deep h⟩) (ih hrest)
  | closed awaited opened kind name raw offset rest h hclosed ih ihAfter =>
    obtain ⟨-, hrest⟩ := List.forall_mem_cons.1 hsound
    exact .block h hclosed hsound (ih hrest) (ihAfter (sound_rest _ _ hrest))
  | unclosed awaited opened kind name raw offset rest h hclosed ih ihAfter =>
    obtain ⟨ht, hrest⟩ := List.forall_mem_cons.1 hsound
    exact .dissolved h hclosed ht (ih hrest) (ihAfter (sound_rest _ _ hrest))
  | own opened kind raw offset rest => exact .stopped (.own rfl)
  | outer awaited opened kind raw offset rest h hmem => exact .stopped (.outer h hmem)
  | unmatched awaited opened kind raw offset rest h hmem ih =>
    obtain ⟨ht, hrest⟩ := List.forall_mem_cons.1 hsound
    exact .kept ht (fun _ _ => written_consText) (fun rest => ⟨_, read_unmatched_close h hmem⟩)
      (ih hrest)

theorem tidy_read (awaited : Option BlockKind) (opened : List BlockKind) (tokens : List Token)
    (hsound : ∀ t ∈ tokens, t.Sound) : Tidy (read awaited opened tokens).nodes := by
  induction awaited, opened, tokens using read_induction with
  | nil awaited opened =>
    rw [read_nil]
    exact .nil
  | text awaited opened run rest ih =>
    obtain ⟨ht, hrest⟩ := List.forall_mem_cons.1 hsound
    rw [read_text]
    exact (ih hrest).consText ht.1
  | substitution awaited opened name raw offset rest ih =>
    obtain ⟨-, hrest⟩ := List.forall_mem_cons.1 hsound
    rw [read_variable]
    refine (ih hrest).cons rfl ?_
    rintro _ _ _ ⟨⟩
  | deep awaited opened kind name raw offset rest h ih =>
    obtain ⟨ht, hrest⟩ := List.forall_mem_cons.1 hsound
    rw [read_deep h]
    exact (ih hrest).consText ht.raw_ne_empty
  | closed awaited opened kind name raw offset rest h hclosed ih ihAfter =>
    obtain ⟨-, hrest⟩ := List.forall_mem_cons.1 hsound
    rw [read_closed h hclosed]
    refine (ihAfter (sound_rest _ _ hrest)).cons rfl ?_
    rintro _ _ _ ⟨⟩
    exact ih hrest
  | unclosed awaited opened kind name raw offset rest h hclosed ih ihAfter =>
    obtain ⟨ht, hrest⟩ := List.forall_mem_cons.1 hsound
    rw [read_unclosed h hclosed]
    exact ((ih hrest).splice (ihAfter (sound_rest _ _ hrest))).consText ht.raw_ne_empty
  | own opened kind raw offset rest =>
    rw [read_own_close]
    exact .nil
  | outer awaited opened kind raw offset rest h hmem =>
    rw [read_outer_close h hmem]
    exact .nil
  | unmatched awaited opened kind raw offset rest h hmem ih =>
    obtain ⟨ht, hrest⟩ := List.forall_mem_cons.1 hsound
    rw [read_unmatched_close h hmem]
    exact (ih hrest).consText ht.raw_ne_empty

theorem renderAll_texts {nodes : List Node} {s : String} (h : Written nodes s)
    (htexts : ∀ node ∈ nodes, node.isText = true) (scope : Scope) : renderAll scope nodes = s := by
  induction h with
  | nil => rfl
  | text h ih =>
    rw [renderAll, render, ih fun node hmem => htexts node (List.mem_cons_of_mem _ hmem)]
  | substitution h ih => cases htexts _ List.mem_cons_self
  | block hgap hbody h ihBody ih => cases htexts _ List.mem_cons_self

end Node

namespace Template

theorem retold_scan (source : String) :
    Node.Written (parse source).nodes source ∧
    ∀ s, Node.Written (parse source).nodes s → (parse s).nodes = (parse source).nodes := by
  have hsettled := Token.settled_scan source
  obtain ⟨taken, tail, hsplit, hstop, hwritten, hretold⟩ :=
    Node.retold_read none [] (scan source) hsettled.sound
  obtain rfl := hstop.outermost
  obtain rfl : taken = scan source := by simpa using hsplit.symm
  constructor
  · rwa [Token.joined_scan] at hwritten
  · intro s hs
    obtain ⟨spelled, halike, rfl, hmore⟩ := hretold s hs
    obtain ⟨left, found, -, hread⟩ := hmore [] .nil
    rw [List.append_nil] at hread
    rw [parse_joined (hsettled.alike halike), hread]
    rfl

/-- Templates have the same nodes exactly if they differ in the gaps of matched openings only. -/
theorem written_parse_iff (source s : String) :
    Node.Written (parse source).nodes s ↔ (parse s).nodes = (parse source).nodes := by
  constructor
  · exact (retold_scan source).2 s
  · intro h
    rw [← h]
    exact (retold_scan s).1

/-- Parsing loses nothing but the gaps in the openings of blocks: the nodes are written in the
template, they are read again from what they print, and they are tidy. A template of texts only
renders as it is. -/
theorem parse_lossless (source : String) :
    Node.Written (parse source).nodes source ∧
    (parse (Node.printAll (parse source).nodes)).nodes = (parse source).nodes ∧
    Node.Tidy (parse source).nodes ∧
    ((∀ node ∈ (parse source).nodes, node.isText = true) → ∀ c, compile source c = source) := by
  have hwritten : Node.Written (parse source).nodes source :=
    (written_parse_iff source source).2 rfl
  refine ⟨hwritten, ?_, ?_, ?_⟩
  · exact (written_parse_iff source _).1 (Node.written_printAll _)
  · exact Node.tidy_read none [] (scan source) (Token.settled_scan source).sound
  · intro htexts c
    exact Node.renderAll_texts hwritten htexts (.document c)

theorem parse_lossless_stray :
    let source := "\x7b\x7b#if a\x7d\x7d\x7b\x7b/each\x7d\x7d\x7b\x7b b \x7d\x7d"
    (∀ node ∈ (parse source).nodes, node.isText = true) ∧ ∀ c, compile source c = source := by
  intro source
  have htexts : ∀ node ∈ (parse source).nodes, node.isText = true := by decide +kernel
  exact ⟨htexts, (parse_lossless source).2.2.2 htexts⟩

end Template

end QuotePress
