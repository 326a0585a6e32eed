import QuotePress.Proofs.Template.Levels
import QuotePress.Proofs.Template.StackMachine
import Mathlib.Logic.Relation

/-! # The calls of the parser

A parser that descends into blocks, with its state laid open: one position in the tokens and one
stack of open blocks that all calls share, and the nodes of every call that is not over. A call may
end without taking a token; that the parser still gets on comes from its callers, one of which takes
the close that was left. -/
namespace QuotePress

theorem Machine.kinds_close (m : Machine) : m.close.kinds = m.kinds.tail := by
  obtain ⟨nodes, frames, findings⟩ := m
  cases frames with
  | nil => rfl
  | cons frame outer =>
    rw [close, kinds_push]
    rfl

structure Descent where
  /-- How many tokens are taken. -/
  position : Nat
  /-- The kinds of the blocks that are read, the innermost first. -/
  opened : List BlockKind
  /-- The outermost call has nodes only; a call farther in also has the opening it was made for. -/
  calls : Machine
  /-- What the innermost call answers when it is over: whether it took its own close. -/
  answer : Option Bool

namespace Descent

def start : Descent := ⟨0, [], .start, none⟩

def depth (d : Descent) : Nat := d.calls.kinds.length

def awaited (d : Descent) : Option BlockKind := d.calls.kinds.head?

/-- What a parser does next: the innermost call takes a token, calls, or is over; or its caller goes
on with what it answers. -/
inductive Step (tokens : List Token) : Descent → Descent → Prop where
  | text {p : Nat} {opened : List BlockKind} {m : Machine} {run : String}
      (h : tokens[p]? = some (.text run)) :
      Step tokens ⟨p, opened, m, none⟩ ⟨p + 1, opened, m.push (.text run), none⟩
  | substitution {p : Nat} {opened : List BlockKind} {m : Machine} {name raw : String}
      {offset : Nat} (h : tokens[p]? = some (.directive (.variable name) raw offset)) :
      Step tokens ⟨p, opened, m, none⟩ ⟨p + 1, opened, m.push (.variable name), none⟩
  | deep {p : Nat} {opened : List BlockKind} {m : Machine} {kind : BlockKind} {name raw : String}
      {offset : Nat} (h : tokens[p]? = some (.directive (.opening kind name) raw offset))
      (hdeep : opened.length ≥ maxNesting) :
      Step tokens ⟨p, opened, m, none⟩
        ⟨p + 1, opened, (m.push (.text raw)).report [⟨.depthExceeded, offset, raw⟩], none⟩
  | call {p : Nat} {opened : List BlockKind} {m : Machine} {kind : BlockKind} {name raw : String}
      {offset : Nat} (h : tokens[p]? = some (.directive (.opening kind name) raw offset))
      (hroom : ¬ opened.length ≥ maxNesting) :
      Step tokens ⟨p, opened, m, none⟩
        ⟨p + 1, kind :: opened, m.enter ⟨kind, name, raw, offset, []⟩, none⟩
  | own {p : Nat} {opened : List BlockKind} {m : Machine} {kind : BlockKind} {raw : String}
      {offset : Nat} (h : tokens[p]? = some (.directive (.closing kind) raw offset))
      (hown : m.kinds.head? = some kind) :
      Step tokens ⟨p, opened, m, none⟩ ⟨p + 1, opened, m, some true⟩
  | outer {p : Nat} {opened : List BlockKind} {m : Machine} {kind : BlockKind} {raw : String}
      {offset : Nat} (h : tokens[p]? = some (.directive (.closing kind) raw offset))
      (hother : m.kinds.head? ≠ some kind) (hmem : kind ∈ opened) :
      Step tokens ⟨p, opened, m, none⟩ ⟨p, opened, m, some false⟩
  | unmatched {p : Nat} {opened : List BlockKind} {m : Machine} {kind : BlockKind} {raw : String}
      {offset : Nat} (h : tokens[p]? = some (.directive (.closing kind) raw offset))
      (hother : m.kinds.head? ≠ some kind) (hmem : kind ∉ opened) :
      Step tokens ⟨p, opened, m, none⟩
        ⟨p + 1, opened, (m.push (.text raw)).report [⟨.unmatchedClose, offset, raw⟩], none⟩
  | ended {p : Nat} {opened : List BlockKind} {m : Machine} (h : tokens[p]? = none) :
      Step tokens ⟨p, opened, m, none⟩ ⟨p, opened, m, some false⟩
  | back {p : Nat} {opened : List BlockKind} {m : Machine} {closed : Bool} (h : m.frames ≠ []) :
      Step tokens ⟨p, opened, m, some closed⟩
        ⟨p, opened.tail, if closed then m.close else m.dissolve, none⟩

variable {tokens : List Token} {d next other : Descent}

theorem Step.unique (h : Step tokens d next) (h' : Step tokens d other) : next = other := by
  cases h <;> cases h' <;> simp_all

/-- Where a call is over: past the close that it reads up to, at the end, or before the close of a
block around its own, which is of another kind. -/
inductive Over (tokens : List Token) (awaited : Option BlockKind) (around : List BlockKind) :
    Nat → Bool → Prop where
  | own {p : Nat} {kind : BlockKind} {raw : String} {offset : Nat}
      (h : tokens[p]? = some (.directive (.closing kind) raw offset))
      (hown : awaited = some kind) : Over tokens awaited around (p + 1) true
  | ended : Over tokens awaited around tokens.length false
  | outer {p : Nat} {kind : BlockKind} {raw : String} {offset : Nat}
      (h : tokens[p]? = some (.directive (.closing kind) raw offset))
      (hother : awaited ≠ some kind) (hmem : kind ∈ around) : Over tokens awaited around p false

structure Sound (tokens : List Token) (d : Descent) : Prop where
  position_le : d.position ≤ tokens.length
  opened_eq : d.opened = d.calls.kinds
  length_le : d.opened.length ≤ maxNesting
  ends : ∀ closed, d.answer = some closed →
    Over tokens d.awaited d.opened.tail d.position closed

theorem sound_start : Sound tokens start :=
  ⟨Nat.zero_le _, rfl, Nat.zero_le _, nofun⟩

theorem mem_tail {opened : List BlockKind} {kind : BlockKind} (h : opened.head? ≠ some kind)
    (hmem : kind ∈ opened) : kind ∈ opened.tail := by
  cases opened with
  | nil => cases hmem
  | cons first rest =>
    rcases List.mem_cons.1 hmem with rfl | hmem
    · exact absurd rfl h
    · exact hmem

theorem lt_of_token {p : Nat} {token : Token} (h : tokens[p]? = some token) : p < tokens.length :=
  (List.getElem?_eq_some_iff.1 h).1

theorem Sound.take {p : Nat} {opened : List BlockKind} {m after : Machine} {token : Token}
    (hd : Sound tokens ⟨p, opened, m, none⟩) (h : tokens[p]? = some token)
    (hkinds : after.kinds = m.kinds) : Sound tokens ⟨p + 1, opened, after, none⟩ :=
  ⟨lt_of_token h, hd.opened_eq.trans hkinds.symm, hd.length_le, nofun⟩

theorem Sound.finish {p q : Nat} {opened : List BlockKind} {m : Machine} {closed : Bool}
    (hd : Sound tokens ⟨p, opened, m, none⟩) (hq : q ≤ tokens.length)
    (h : Over tokens m.kinds.head? opened.tail q closed) :
    Sound tokens ⟨q, opened, m, some closed⟩ := by
  refine ⟨hq, hd.opened_eq, hd.length_le, ?_⟩
  rintro _ ⟨⟩
  exact h

/-- One step keeps the parser sound, and never goes back in the tokens. -/
theorem Step.sound (h : Step tokens d next) (hd : Sound tokens d) :
    Sound tokens next ∧ d.position ≤ next.position := by
  cases h with
  | text h => exact ⟨hd.take h (Machine.kinds_push ..), Nat.le_succ _⟩
  | substitution h => exact ⟨hd.take h (Machine.kinds_push ..), Nat.le_succ _⟩
  | deep h => exact ⟨hd.take h (Machine.kinds_push ..), Nat.le_succ _⟩
  | unmatched h => exact ⟨hd.take h (Machine.kinds_push ..), Nat.le_succ _⟩
  | call h hroom =>
    exact ⟨⟨lt_of_token h, congrArg (_ :: ·) hd.opened_eq, Nat.lt_of_not_le hroom, nofun⟩,
      Nat.le_succ _⟩
  | own h hown => exact ⟨hd.finish (lt_of_token h) (.own h hown), Nat.le_succ _⟩
  | @outer _ opened m kind _ _ h hother hmem =>
    have hopened : opened = m.kinds := hd.opened_eq
    have hmem : kind ∈ opened.tail := mem_tail (hopened ▸ hother) hmem
    exact ⟨hd.finish hd.position_le (.outer h hother hmem), Nat.le_refl _⟩
  | @ended p _ _ h =>
    have hlast : p = tokens.length :=
      Nat.le_antisymm hd.position_le (List.getElem?_eq_none_iff.1 h)
    exact ⟨hd.finish hd.position_le (hlast ▸ .ended), Nat.le_refl _⟩
  | @back _ opened m closed =>
    have hkinds : (if closed then m.close else m.dissolve).kinds = m.kinds.tail := by
      split
      · exact Machine.kinds_close m
      · exact Machine.kinds_dissolve m
    have hlength : opened.length ≤ maxNesting := hd.length_le
    refine ⟨⟨hd.position_le, (congrArg List.tail hd.opened_eq).trans hkinds.symm, ?_, nofun⟩,
      Nat.le_refl _⟩
    exact Nat.le_trans (List.length_tail ▸ Nat.sub_le _ _) hlength

/-- Whatever a sound parser does, it stays sound and never goes back. -/
theorem Sound.run (hd : Sound tokens d) (h : Relation.ReflTransGen (Step tokens) d next) :
    Sound tokens next ∧ d.position ≤ next.position := by
  induction h with
  | refl => exact ⟨hd, Nat.le_refl _⟩
  | tail _ hstep ih =>
    obtain ⟨hsound, hposition⟩ := hstep.sound ih.1
    exact ⟨hsound, Nat.le_trans ih.2 hposition⟩

/-! ## Every call is over at last -/

def UnderWay (depth : Nat) (d : Descent) : Prop :=
  depth < d.depth ∨ depth = d.depth ∧ d.answer = none

def During (tokens : List Token) (depth : Nat) (d next : Descent) : Prop :=
  UnderWay depth d ∧ Step tokens d next

theorem depth_eq {p : Nat} {opened : List BlockKind} {m : Machine} {answer : Option Bool}
    (h : m.kinds = opened) : (⟨p, opened, m, answer⟩ : Descent).depth = opened.length :=
  congrArg List.length h

theorem During.farther {depth : Nat} (h : During tokens (depth + 1) d next) :
    During tokens depth d next := by
  obtain ⟨hdepth | ⟨hdepth, -⟩, hstep⟩ := h
  · exact ⟨Or.inl (Nat.lt_of_succ_lt hdepth), hstep⟩
  · exact ⟨Or.inl (Nat.lt_of_succ_le (Nat.le_of_eq hdepth)), hstep⟩

theorem During.atWork {p : Nat} {opened : List BlockKind} {m : Machine} (h : m.kinds = opened)
    (hstep : Step tokens ⟨p, opened, m, none⟩ next) :
    During tokens opened.length ⟨p, opened, m, none⟩ next :=
  ⟨Or.inr ⟨(depth_eq h).symm, rfl⟩, hstep⟩

theorem During.back {p : Nat} {kind : BlockKind} {opened : List BlockKind} {m : Machine}
    {closed : Bool} (h : m.kinds = kind :: opened) :
    During tokens opened.length ⟨p, kind :: opened, m, some closed⟩
      ⟨p, opened, if closed then m.close else m.dissolve, none⟩ := by
  refine ⟨Or.inl ?_, .back ?_⟩
  · rw [depth_eq h]
    exact Nat.lt_succ_self _
  · rintro hnone
    rw [Machine.kinds, hnone] at h
    cases h

/-- A call that is made, goes on and is over happens during the call that makes it. -/
theorem During.called {p q : Nat} {opened : List BlockKind} {m after : Machine} {kind : BlockKind}
    {name raw : String} {offset : Nat} {closed : Bool} (hkinds : m.kinds = opened)
    (htoken : tokens[p]? = some (.directive (.opening kind name) raw offset))
    (hroom : ¬ opened.length ≥ maxNesting)
    (hcall : Relation.ReflTransGen (During tokens (kind :: opened).length)
      ⟨p + 1, kind :: opened, m.enter ⟨kind, name, raw, offset, []⟩, none⟩
      ⟨q, kind :: opened, after, some closed⟩)
    (hafter : after.kinds = kind :: opened) :
    Relation.ReflTransGen (During tokens opened.length) ⟨p, opened, m, none⟩
      ⟨q, opened, if closed then after.close else after.dissolve, none⟩ :=
  .head (.atWork hkinds (.call htoken hroom))
    ((Relation.ReflTransGen.mono (fun _ _ => During.farther) _ _ hcall).tail (.back hafter))

theorem token_of_drop {p : Nat} {token : Token} {rest : List Token}
    (h : tokens.drop p = token :: rest) : tokens[p]? = some token ∧ tokens.drop (p + 1) = rest := by
  constructor
  · rw [← List.head?_drop, h]
    rfl
  · rw [← List.tail_drop, h]
    rfl

/-- A call goes as the reading of the tokens that it finds goes. It is over with the same answer and
before the same tokens, and has added the nodes of the reading. -/
theorem run_read (awaited : Option BlockKind) (opened : List BlockKind) (rest : List Token)
    {p : Nat} {m : Machine} (hrest : tokens.drop p = rest) (hkinds : m.kinds = opened)
    (hawaited : awaited = opened.head?) :
    ∃ q found, tokens.drop q = (Node.read awaited opened rest).rest ∧
      found.Perm (Node.read awaited opened rest).findings ∧
      Relation.ReflTransGen (During tokens opened.length) ⟨p, opened, m, none⟩
        ⟨q, opened, (m.pushAll (Node.read awaited opened rest).nodes).report found,
          some (Node.read awaited opened rest).closed⟩ := by
  induction awaited, opened, rest using Node.read_induction generalizing p m with
  | nil awaited opened =>
    rw [Node.read_nil]
    refine ⟨p, [], hrest, .nil, ?_⟩
    rw [Machine.report_nil]
    exact .single (.atWork hkinds (.ended (List.getElem?_eq_none (List.drop_eq_nil_iff.1 hrest))))
  | text awaited opened run rest ih =>
    obtain ⟨htoken, hrest⟩ := token_of_drop hrest
    obtain ⟨q, found, hq, hfound, hrun⟩ :=
      @ih (p + 1) (m.push (.text run)) hrest (by rw [Machine.kinds_push, hkinds]) hawaited
    rw [Node.read_text, Machine.pushAll_consText]
    exact ⟨q, found, hq, hfound, .head (.atWork hkinds (.text htoken)) hrun⟩
  | substitution awaited opened name raw offset rest ih =>
    obtain ⟨htoken, hrest⟩ := token_of_drop hrest
    obtain ⟨q, found, hq, hfound, hrun⟩ :=
      @ih (p + 1) (m.push (.variable name)) hrest (by rw [Machine.kinds_push, hkinds]) hawaited
    rw [Node.read_variable]
    exact ⟨q, found, hq, hfound, .head (.atWork hkinds (.substitution htoken)) hrun⟩
  | deep awaited opened kind name raw offset rest h ih =>
    obtain ⟨htoken, hrest⟩ := token_of_drop hrest
    obtain ⟨q, found, hq, hfound, hrun⟩ :=
      @ih (p + 1) ((m.push (.text raw)).report [⟨.depthExceeded, offset, raw⟩]) hrest
        (by rw [Machine.kinds_report, Machine.kinds_push, hkinds]) hawaited
    rw [Machine.pushAll_report, Machine.report_report] at hrun
    rw [Node.read_deep h, Machine.pushAll_consText]
    exact ⟨q, _, hq, hfound.cons _, .head (.atWork hkinds (.deep htoken h)) hrun⟩
  | closed awaited opened kind name raw offset rest h hclosed ih ihAfter =>
    obtain ⟨htoken, hrest⟩ := token_of_drop hrest
    have happart := Node.read_apart (some kind) (kind :: opened) rest
    rw [Node.read_closed h hclosed, Machine.pushAll_cons]
    generalize Node.read (some kind) (kind :: opened) rest = inner at ih ihAfter hclosed happart ⊢
    obtain ⟨mid, body, hmid, hbody, hcall⟩ :=
      @ih (p + 1) (m.enter ⟨kind, name, raw, offset, []⟩) hrest (congrArg _ hkinds) rfl
    have hframe := Machine.kinds_entered m ⟨kind, name, raw, offset, []⟩ inner.nodes body hkinds
    have hcalled := During.called hkinds htoken h hcall hframe
    rw [hclosed, if_pos rfl, Machine.close_entered m inner.nodes body happart] at hcalled
    obtain ⟨q, found, hq, hfound, hrun⟩ :=
      @ihAfter mid ((m.push (.block kind name inner.nodes)).report body) hmid
        (by rw [Machine.kinds_report, Machine.kinds_push, hkinds]) hawaited
    rw [Machine.pushAll_report, Machine.report_report] at hrun
    exact ⟨q, body ++ found, hq, hbody.append hfound, hcalled.trans hrun⟩
  | unclosed awaited opened kind name raw offset rest h hclosed ih ihAfter =>
    obtain ⟨htoken, hrest⟩ := token_of_drop hrest
    have happart := Node.read_apart (some kind) (kind :: opened) rest
    rw [Node.read_unclosed h hclosed, Machine.pushAll_consText, Machine.pushAll_splice]
    generalize Node.read (some kind) (kind :: opened) rest = inner at ih ihAfter hclosed happart ⊢
    obtain ⟨mid, body, hmid, hbody, hcall⟩ :=
      @ih (p + 1) (m.enter ⟨kind, name, raw, offset, []⟩) hrest (congrArg _ hkinds) rfl
    have hframe := Machine.kinds_entered m ⟨kind, name, raw, offset, []⟩ inner.nodes body hkinds
    have hcalled := During.called hkinds htoken h hcall hframe
    rw [hclosed, if_neg Bool.false_ne_true, Machine.dissolve_entered m inner.nodes body happart]
      at hcalled
    obtain ⟨q, found, hq, hfound, hrun⟩ :=
      @ihAfter mid (((m.push (.text raw)).pushAll inner.nodes).report
        (body ++ [⟨.unclosed, offset, raw⟩])) hmid
        (by rw [Machine.kinds_report, Machine.kinds_pushAll, Machine.kinds_push, hkinds]) hawaited
    rw [Machine.pushAll_report, Machine.report_report] at hrun
    refine ⟨q, body ++ [⟨.unclosed, offset, raw⟩] ++ found, hq, ?_, hcalled.trans hrun⟩
    rw [List.append_assoc]
    exact List.perm_middle.trans ((hbody.append hfound).cons _)
  | own opened kind raw offset rest =>
    obtain ⟨htoken, hrest⟩ := token_of_drop hrest
    rw [Node.read_own_close]
    refine ⟨p + 1, [], hrest, .nil, ?_⟩
    rw [Machine.report_nil]
    exact .single (.atWork hkinds (.own htoken (hkinds ▸ hawaited.symm)))
  | outer awaited opened kind raw offset rest h hmem =>
    obtain ⟨htoken, -⟩ := token_of_drop hrest
    rw [Node.read_outer_close h hmem]
    refine ⟨p, [], hrest, .nil, ?_⟩
    rw [Machine.report_nil]
    exact .single (.atWork hkinds (.outer htoken (hkinds ▸ hawaited ▸ h) hmem))
  | unmatched awaited opened kind raw offset rest h hmem ih =>
    obtain ⟨htoken, hrest⟩ := token_of_drop hrest
    obtain ⟨q, found, hq, hfound, hrun⟩ :=
      @ih (p + 1) ((m.push (.text raw)).report [⟨.unmatchedClose, offset, raw⟩]) hrest
        (by rw [Machine.kinds_report, Machine.kinds_push, hkinds]) hawaited
    rw [Machine.pushAll_report, Machine.report_report] at hrun
    rw [Node.read_unmatched_close h hmem, Machine.pushAll_consText]
    exact ⟨q, _, hq, hfound.cons _,
      .head (.atWork hkinds (.unmatched htoken (hkinds ▸ hawaited ▸ h) hmem)) hrun⟩

/-! ## The calls that a parser makes -/

inductive Begun (tokens : List Token) : Descent → Prop where
  | outermost : Begun tokens start
  | made {before d : Descent} (h : Relation.ReflTransGen (Step tokens) start before)
      (hstep : Step tokens before d) (hdepth : before.depth < d.depth) : Begun tokens d

theorem Begun.reached (h : Begun tokens d) : Relation.ReflTransGen (Step tokens) start d := by
  cases h with
  | outermost => exact .refl
  | made h hstep => exact h.tail hstep

theorem Step.deeper (h : Step tokens d next) (hdepth : d.depth < next.depth) :
    next.answer = none := by
  cases h with
  | own => exact absurd hdepth (Nat.lt_irrefl _)
  | outer => exact absurd hdepth (Nat.lt_irrefl _)
  | ended => exact absurd hdepth (Nat.lt_irrefl _)
  | _ => rfl

theorem Begun.atWork (h : Begun tokens d) : d.answer = none := by
  cases h with
  | outermost => rfl
  | made _ hstep hdepth => exact hstep.deeper hdepth

/-- A call that begins in `d` is over in `last`, after steps none of which leaves it. It is what the
reading of a stretch is, for the close that it reads up to and the blocks that are open. -/
structure Returns (tokens : List Token) (d last : Descent) (closed : Bool) : Prop where
  run : Relation.ReflTransGen (During tokens d.depth) d last
  answer_eq : last.answer = some closed
  depth_eq : last.depth = d.depth
  opened_eq : last.opened = d.opened
  position_le : d.position ≤ last.position
  ends : Over tokens d.awaited d.opened.tail last.position closed
  read : ∃ nodes findings found, Node.read d.awaited d.opened (tokens.drop d.position) =
    ⟨nodes, findings, closed, tokens.drop last.position⟩ ∧ found.Perm findings ∧
      last.calls = (d.calls.pushAll nodes).report found

theorem Begun.returns (h : Begun tokens d) : ∃ last closed, Returns tokens d last closed := by
  have hsound := (sound_start.run h.reached).1
  have hwork := h.atWork
  obtain ⟨p, opened, m, answer⟩ := d
  cases hwork
  have hopened : opened = m.kinds := hsound.opened_eq
  obtain ⟨q, found, hq, hfound, hrun⟩ := run_read m.kinds.head? opened (tokens.drop p) rfl
    hopened.symm (congrArg List.head? hopened.symm)
  have hsteps := Relation.ReflTransGen.mono (fun _ _ => And.right) _ _ hrun
  obtain ⟨hlast, hposition⟩ := hsound.run hsteps
  have hkinds := hlast.opened_eq.symm.trans hopened
  have hends := hlast.ends _ rfl
  rw [awaited, hkinds] at hends
  refine ⟨_, _, depth_eq hopened.symm ▸ hrun, rfl, congrArg List.length hkinds, rfl, hposition,
    hends, _, _, found, ?_, hfound, rfl⟩
  rw [hq]
  rfl

/-- The outermost call takes all tokens, and has the nodes of the template. -/
theorem outermost_returns (tokens : List Token) : ∃ found,
    found.Perm (Node.read none [] tokens).findings ∧
      Relation.ReflTransGen (Step tokens) start
        ⟨tokens.length, [], ⟨(Node.read none [] tokens).nodes, [], found⟩, some false⟩ := by
  have hbegun : Begun tokens start := .outermost
  obtain ⟨⟨p, opened, m, answer⟩, closed, hreturns⟩ := hbegun.returns
  obtain ⟨nodes, findings, found, hread, hfound, hcalls⟩ := hreturns.read
  replace hread : Node.read none [] tokens = ⟨nodes, findings, closed, tokens.drop p⟩ := hread
  have hnodes : nodes.foldl Node.push [] = nodes := by
    have happart := Node.read_apart none [] tokens
    rw [hread] at happart
    exact Node.foldl_push [] happart
  replace hcalls : m = ⟨nodes, [], found⟩ := by
    rw [Machine.report, start, Machine.start, Machine.pushAll_outside, hnodes] at hcalls
    exact hcalls
  have hrun := Relation.ReflTransGen.mono (fun _ _ => And.right) _ _ hreturns.run
  cases hcalls
  cases hreturns.answer_eq
  cases hreturns.opened_eq
  rw [hread]
  cases hreturns.ends with
  | own _ hown => cases hown
  | outer _ _ hmem => cases hmem
  | ended => exact ⟨found, hfound, hrun⟩

theorem not_step_outermost {p : Nat} {opened : List BlockKind} {nodes : List Node}
    {found : List Diagnostic} {closed : Bool} :
    ¬ Step tokens ⟨p, opened, ⟨nodes, [], found⟩, some closed⟩ next := by
  intro h
  cases h with
  | back hframes => exact hframes rfl

/-- Every call of the parser is over at last, with the stack of open blocks as it was and never more
than 64 on it, and at a place that its answer tells. So the outermost call takes all tokens, and the
trees of templates are rendered in 65 calls in one another at most. -/
theorem calls_return :
    (∀ tokens : List Token,
      (∀ d next other, Step tokens d next → Step tokens d other → next = other) ∧
      (∀ d, Relation.ReflTransGen (Step tokens) start d → d.opened.length ≤ 64) ∧
      (∀ d, Begun tokens d → ∃ last closed, Returns tokens d last closed) ∧
      ∃ found, found.Perm (Node.read none [] tokens).findings ∧
        Relation.ReflTransGen (Step tokens) start
          ⟨tokens.length, [], ⟨(Node.read none [] tokens).nodes, [], found⟩, some false⟩ ∧
        ∀ next, ¬ Step tokens
          ⟨tokens.length, [], ⟨(Node.read none [] tokens).nodes, [], found⟩, some false⟩ next) ∧
    ∀ source : String,
      (∃ found, Relation.ReflTransGen (Step (Token.scan source)) start
          ⟨(Token.scan source).length, [], ⟨(Template.parse source).nodes, [], found⟩, some false⟩ ∧
        (found.mergeSort fun a b => a.offset ≤ b.offset) = (Template.parse source).diagnostics) ∧
      Node.depthAll (Template.parse source).nodes ≤ 64 ∧
      ∀ scope, Node.renderWithin 65 scope (Template.parse source).nodes =
        some ((Template.parse source).render scope) := by
  refine ⟨fun tokens => ⟨fun _ _ _ => Step.unique, fun d h => ?_, fun d h => h.returns, ?_⟩,
    fun source => ⟨?_, Template.parse_depth source, fun scope => ?_⟩⟩
  · exact (sound_start.run h).1.length_le
  · obtain ⟨found, hfound, hrun⟩ := outermost_returns tokens
    exact ⟨found, hfound, hrun, fun _ => not_step_outermost⟩
  · obtain ⟨found, hfound, hrun⟩ := outermost_returns (Token.scan source)
    exact ⟨found, hrun, sorted_findings hfound (Template.parse_ascending source)⟩
  · exact Node.renderWithin_of_depth scope (Template.parse_depth source)

/-- The close of a loop ends the call for a conditional in it, which does not take it. -/
theorem calls_return_early :
    let tokens : List Token :=
      [.directive (.opening .loop "xs") "\x7b\x7b#each xs\x7d\x7d" 0,
        .directive (.opening .conditional "a") "\x7b\x7b#if a\x7d\x7d" 12,
        .directive (.closing .loop) "\x7b\x7b/each\x7d\x7d" 21]
    let frames : List Frame :=
      [⟨.conditional, "a", "\x7b\x7b#if a\x7d\x7d", 12, []⟩,
        ⟨.loop, "xs", "\x7b\x7b#each xs\x7d\x7d", 0, []⟩]
    let d : Descent := ⟨2, [.conditional, .loop], ⟨[], frames, []⟩, none⟩
    Begun tokens d ∧ d.opened.length ≤ 64 ∧ (∃ last, Returns tokens d last false) ∧
      ∀ next, Step tokens d next → next = ⟨2, d.opened, d.calls, some false⟩ := by
  intro tokens frames d
  have hbegun : Begun tokens d :=
    .made (.single (.call rfl (by decide))) (.call rfl (by decide)) (by decide)
  obtain ⟨hunique, hlength, hreturn, -⟩ := calls_return.1 tokens
  have hstep : Step tokens d ⟨2, d.opened, d.calls, some false⟩ :=
    .outer rfl (by decide) (by decide)
  refine ⟨hbegun, hlength d hbegun.reached, ?_, fun next h => hunique d next _ h hstep⟩
  obtain ⟨last, closed, hreturns⟩ := hreturn d hbegun
  obtain ⟨nodes, findings, found, hread, -⟩ := hreturns.read
  replace hread : Node.read (some .conditional) [.conditional, .loop]
    [.directive (.closing .loop) "\x7b\x7b/each\x7d\x7d" 21] = _ := hread
  rw [Node.read_outer_close (by decide) (by decide)] at hread
  cases (congrArg Node.Reading.closed hread : false = closed)
  exact ⟨last, hreturns⟩

end Descent

end QuotePress
