import QuotePress.Proofs.Template.Reading
import Mathlib.Data.List.Nodup
import Mathlib.Logic.Function.Iterate

/-! # The tree of a template in one pass

A machine that reads the tokens once, with the open blocks on a stack. An opening that is never
closed is found out only when its frame is taken off, so findings are put in order at the end. -/
namespace QuotePress

def Node.push (nodes : List Node) (node : Node) : List Node :=
  match nodes.getLast?, node with
  | some (.text last), .text run => nodes.dropLast ++ [.text (last ++ run)]
  | _, node => nodes ++ [node]

structure Frame where
  kind : BlockKind
  name : String
  raw : String
  offset : Nat
  body : List Node

/-- The nodes outside all blocks, the open blocks with the innermost first, and what was found. -/
structure Machine where
  nodes : List Node
  frames : List Frame
  findings : List Diagnostic

namespace Machine

def start : Machine := ⟨[], [], []⟩

def kinds (m : Machine) : List BlockKind := m.frames.map Frame.kind

def above (m : Machine) (kind : BlockKind) : Nat := (m.kinds.takeWhile (· ≠ kind)).length

def enter (m : Machine) (frame : Frame) : Machine := { m with frames := frame :: m.frames }

def report (m : Machine) (found : List Diagnostic) : Machine :=
  { m with findings := m.findings ++ found }

def push (m : Machine) (node : Node) : Machine :=
  match m.frames with
  | [] => { m with nodes := Node.push m.nodes node }
  | frame :: outer => { m with frames := { frame with body := Node.push frame.body node } :: outer }

def pushAll (m : Machine) (nodes : List Node) : Machine := nodes.foldl push m

/-- Takes off the innermost frame as text: its opening, then what was taken for its body. -/
def dissolve (m : Machine) : Machine :=
  match m.frames with
  | [] => m
  | frame :: outer =>
    let opened := { m with frames := outer }.push (.text frame.raw)
    (opened.pushAll frame.body).report [⟨.unclosed, frame.offset, frame.raw⟩]

def close (m : Machine) : Machine :=
  match m.frames with
  | [] => m
  | frame :: outer => { m with frames := outer }.push (.block frame.kind frame.name frame.body)

def step (m : Machine) : Token → Machine
  | .text run => m.push (.text run)
  | .directive (.variable name) _ _ => m.push (.variable name)
  | .directive (.opening kind name) raw offset =>
    if m.frames.length ≥ 64 then
      (m.push (.text raw)).report [⟨.depthExceeded, offset, raw⟩]
    else
      m.enter ⟨kind, name, raw, offset, []⟩
  | .directive (.closing kind) raw offset =>
    if kind ∈ m.kinds then
      (dissolve^[m.above kind] m).close
    else
      (m.push (.text raw)).report [⟨.unmatchedClose, offset, raw⟩]

def result (m : Machine) (tokens : List Token) : Machine :=
  let last := tokens.foldl step m
  dissolve^[last.frames.length] last

end Machine

def Template.ofMachine (tokens : List Token) : Template :=
  let last := Machine.start.result tokens
  ⟨last.nodes, last.findings.mergeSort fun a b => a.offset ≤ b.offset⟩

namespace Node

theorem push_text (nodes : List Node) (last run : String) :
    push (nodes ++ [.text last]) (.text run) = nodes ++ [.text (last ++ run)] := by
  simp [push]

theorem push_other {nodes : List Node} {node : Node}
    (h : ∀ last run, nodes.getLast? = some (.text last) → node ≠ .text run) :
    push nodes node = nodes ++ [node] := by
  unfold push
  split
  · rename_i last run hlast
    exact absurd rfl (h last run hlast)
  · rfl

theorem push_push_text (nodes : List Node) (run next : String) :
    push (push nodes (.text run)) (.text next) = push nodes (.text (run ++ next)) := by
  by_cases h : ∃ last, nodes.getLast? = some (.text last)
  · obtain ⟨last, hlast⟩ := h
    obtain ⟨front, rfl⟩ := List.getLast?_eq_some_iff.1 hlast
    rw [push_text, push_text, push_text, String.append_assoc]
  · have hother (text : String) : push nodes (.text text) = nodes ++ [.text text] := by
      apply push_other
      intro last _ hlast
      exact absurd ⟨last, hlast⟩ h
    rw [hother, hother, push_text]

theorem foldl_push {nodes : List Node} (front : List Node) (h : Apart isText (front ++ nodes)) :
    nodes.foldl push front = front ++ nodes := by
  induction nodes generalizing front with
  | nil => exact (List.append_nil front).symm
  | cons node nodes ih =>
    rw [List.append_cons] at h
    have hpush : push front node = front ++ [node] := by
      apply push_other
      rintro last run hlast rfl
      have hmeet := List.isChain_append.1 h.left_of_append
      exact hmeet.2.2 _ hlast _ rfl ⟨rfl, rfl⟩
    rw [List.foldl_cons, hpush, ih _ h, List.append_cons front node nodes]

end Node

namespace Machine

variable (m : Machine) (frame : Frame) (node : Node) (nodes : List Node)
  (found : List Diagnostic)

theorem pushAll_cons : m.pushAll (node :: nodes) = (m.push node).pushAll nodes := rfl

theorem push_enter : (m.enter frame).push node =
    m.enter { frame with body := Node.push frame.body node } := rfl

theorem pushAll_enter : (m.enter frame).pushAll nodes =
    m.enter { frame with body := nodes.foldl Node.push frame.body } := by
  induction nodes generalizing frame with
  | nil => rfl
  | cons node nodes ih => rw [pushAll_cons, push_enter, ih, List.foldl_cons]

theorem push_push_text (run next : String) :
    (m.push (.text run)).push (.text next) = m.push (.text (run ++ next)) := by
  obtain ⟨base, frames, findings⟩ := m
  cases frames with
  | nil => simp only [push, Node.push_push_text]
  | cons frame outer => simp only [push, Node.push_push_text]

theorem pushAll_consText (run : String) :
    m.pushAll (Node.consText run nodes) = (m.push (.text run)).pushAll nodes := by
  fun_cases Node.consText run nodes with
  | case1 next rest => rw [pushAll_cons, pushAll_cons, push_push_text]
  | case2 => rfl

theorem pushAll_splice (after : List Node) :
    m.pushAll (Node.splice nodes after) = (m.pushAll nodes).pushAll after := by
  fun_induction Node.splice nodes after generalizing m with
  | case1 => rfl
  | case2 run after => exact pushAll_consText m after run
  | case3 node rest after hlast ih => rw [pushAll_cons, pushAll_cons, ih]

theorem pushAll_outside (base : List Node) :
    (⟨base, [], found⟩ : Machine).pushAll nodes = ⟨nodes.foldl Node.push base, [], found⟩ := by
  induction nodes generalizing base with
  | nil => rfl
  | cons node nodes ih => exact ih (Node.push base node)

theorem push_report : (m.report found).push node = (m.push node).report found := by
  obtain ⟨base, frames, findings⟩ := m
  cases frames <;> rfl

theorem pushAll_report : (m.report found).pushAll nodes = (m.pushAll nodes).report found := by
  induction nodes generalizing m with
  | nil => rfl
  | cons node nodes ih => rw [pushAll_cons, push_report, ih, pushAll_cons]

theorem report_nil : m.report [] = m := by
  simp only [report, List.append_nil]

theorem report_report (more : List Diagnostic) :
    (m.report found).report more = m.report (found ++ more) := by
  simp only [report, List.append_assoc]

theorem kinds_push : (m.push node).kinds = m.kinds := by
  obtain ⟨base, frames, findings⟩ := m
  cases frames <;> rfl

theorem kinds_pushAll : (m.pushAll nodes).kinds = m.kinds := by
  induction nodes generalizing m with
  | nil => rfl
  | cons node nodes ih => rw [pushAll_cons, ih, kinds_push]

theorem kinds_report : (m.report found).kinds = m.kinds := rfl

theorem kinds_dissolve : m.dissolve.kinds = m.kinds.tail := by
  obtain ⟨base, frames, findings⟩ := m
  cases frames with
  | nil => rfl
  | cons frame outer =>
    rw [dissolve, kinds_report, kinds_pushAll, kinds_push]
    rfl

theorem kinds_entered {opened : List BlockKind} (h : m.kinds = opened) :
    (((m.enter frame).pushAll nodes).report found).kinds = frame.kind :: opened := by
  rw [kinds_report, kinds_pushAll, ← h]
  rfl

/-- A frame that was given nodes goes as a block of them. -/
theorem close_entered {kind : BlockKind} {name raw : String} {offset : Nat}
    (h : Apart Node.isText nodes) :
    (((m.enter ⟨kind, name, raw, offset, []⟩).pushAll nodes).report found).close =
      (m.push (.block kind name nodes)).report found := by
  have hbody : nodes.foldl Node.push [] = nodes := Node.foldl_push [] h
  rw [pushAll_enter, hbody, ← push_report]
  rfl

theorem dissolve_entered {kind : BlockKind} {name raw : String} {offset : Nat}
    (h : Apart Node.isText nodes) :
    (((m.enter ⟨kind, name, raw, offset, []⟩).pushAll nodes).report found).dissolve =
      ((m.push (.text raw)).pushAll nodes).report (found ++ [⟨.unclosed, offset, raw⟩]) := by
  have hbody : nodes.foldl Node.push [] = nodes := Node.foldl_push [] h
  rw [pushAll_enter, hbody, ← report_report, ← pushAll_report, ← push_report]
  rfl

section Steps

variable {m} {kind inner : BlockKind} {outer : List BlockKind} {raw : String} {offset : Nat}
  {tail rest : List Token}

theorem result_cons (t : Token) : m.result (t :: rest) = (m.step t).result rest := rfl

theorem length_frames {opened : List BlockKind} (h : m.kinds = opened) :
    m.frames.length = opened.length := by
  rw [← h, kinds, List.length_map]

theorem step_own (h : m.kinds = kind :: outer) :
    m.step (.directive (.closing kind) raw offset) = m.close := by
  have habove : m.above kind = 0 := by simp [above, h]
  rw [step, if_pos (h ▸ List.mem_cons_self), habove, Function.iterate_zero_apply]

theorem step_enter {opened : List BlockKind} (h : ¬ opened.length ≥ maxNesting) {name : String}
    (hkinds : m.kinds = opened) : m.step (.directive (.opening kind name) raw offset) =
      m.enter ⟨kind, name, raw, offset, []⟩ := by
  have hlength : ¬ m.frames.length ≥ 64 := (length_frames hkinds).symm ▸ h
  rw [step, if_neg hlength]

/-- A close of a block farther out finds the same frame when the innermost is gone already. -/
theorem step_outer (h : m.kinds = inner :: outer) (hinner : inner ≠ kind) (hmem : kind ∈ outer) :
    m.step (.directive (.closing kind) raw offset) =
      m.dissolve.step (.directive (.closing kind) raw offset) := by
  have hkinds : m.dissolve.kinds = outer := by rw [kinds_dissolve, h, List.tail_cons]
  have habove : m.above kind = m.dissolve.above kind + 1 := by
    simp [above, h, hkinds, hinner]
  have hin : kind ∈ m.kinds := h ▸ List.mem_cons_of_mem inner hmem
  have hout : kind ∈ m.dissolve.kinds := hkinds ▸ hmem
  rw [step, if_pos hin, habove, Function.iterate_succ_apply, step, if_pos hout]

/-- Where a body stops without its close, its frame is as good as gone. -/
theorem result_dissolve (h : m.kinds = inner :: outer)
    (hstop : Node.Stop (some inner) (inner :: outer) tail false rest) :
    m.result tail = m.dissolve.result tail := by
  cases hstop with
  | ended =>
    have hkinds : m.dissolve.kinds = outer := by rw [kinds_dissolve, h, List.tail_cons]
    have hlength : m.frames.length = m.dissolve.frames.length + 1 := by
      rw [length_frames h, length_frames hkinds, List.length_cons]
    change dissolve^[m.frames.length] m = dissolve^[m.dissolve.frames.length] m.dissolve
    rw [hlength, Function.iterate_succ_apply]
  | outer hinner hmem =>
    rename_i kind raw offset tail
    have hne : inner ≠ kind := fun heq => hinner (congrArg some heq)
    have hmem : kind ∈ outer := (List.mem_cons.1 hmem).resolve_left (Ne.symm hne)
    rw [result_cons, result_cons, step_outer h hne hmem]

end Steps

/-- Reading a stretch is running the machine up to where the reading stops, with the nodes that
were read in the innermost block. -/
theorem result_read (awaited : Option BlockKind) (opened : List BlockKind) (tokens : List Token)
    (hkinds : m.kinds = opened) (hawaited : awaited = opened.head?) :
    ∃ tail found,
      Node.Stop awaited opened tail (Node.read awaited opened tokens).closed
        (Node.read awaited opened tokens).rest ∧
      found.Perm (Node.read awaited opened tokens).findings ∧
      m.result tokens =
        ((m.pushAll (Node.read awaited opened tokens).nodes).report found).result tail := by
  induction awaited, opened, tokens using Node.read_induction generalizing m with
  | nil awaited opened =>
    rw [Node.read_nil]
    exact ⟨[], [], .ended, .nil, by rw [report_nil]; rfl⟩
  | text awaited opened run rest ih =>
    obtain ⟨tail, found, hstop, hfound, hrun⟩ :=
      ih (m.push (.text run)) (by rw [kinds_push, hkinds]) hawaited
    rw [Node.read_text, pushAll_consText]
    exact ⟨tail, found, hstop, hfound, hrun⟩
  | substitution awaited opened name raw offset rest ih =>
    obtain ⟨tail, found, hstop, hfound, hrun⟩ :=
      ih (m.push (.variable name)) (by rw [kinds_push, hkinds]) hawaited
    rw [Node.read_variable]
    exact ⟨tail, found, hstop, hfound, hrun⟩
  | deep awaited opened kind name raw offset rest h ih =>
    obtain ⟨tail, found, hstop, hfound, hrun⟩ :=
      ih ((m.push (.text raw)).report [⟨.depthExceeded, offset, raw⟩])
        (by rw [kinds_report, kinds_push, hkinds]) hawaited
    have hlength : m.frames.length ≥ 64 := (length_frames hkinds).symm ▸ h
    rw [Node.read_deep h, pushAll_consText]
    refine ⟨tail, _ :: found, hstop, hfound.cons _, ?_⟩
    rw [result_cons, step, if_pos hlength, hrun, pushAll_report, report_report]
    rfl
  | closed awaited opened kind name raw offset rest h hclosed ih ihAfter =>
    have happart := Node.read_apart (some kind) (kind :: opened) rest
    rw [Node.read_closed h hclosed]
    generalize Node.read (some kind) (kind :: opened) rest = inner at ih ihAfter hclosed happart ⊢
    obtain ⟨own, body, hstop, hbody, hrun⟩ :=
      ih (m.enter ⟨kind, name, raw, offset, []⟩) (congrArg _ hkinds) rfl
    have hframe := kinds_entered m ⟨kind, name, raw, offset, []⟩ inner.nodes body hkinds
    rw [hclosed] at hstop
    cases hstop with
    | own hkind =>
      cases hkind
      obtain ⟨tail, found, hstop, hfound, hafter⟩ :=
        ihAfter ((m.push (.block kind name inner.nodes)).report body)
          (by rw [kinds_report, kinds_push, hkinds]) hawaited
      refine ⟨tail, body ++ found, hstop, hbody.append hfound, ?_⟩
      rw [result_cons, step_enter h hkinds, hrun, result_cons, step_own hframe,
        close_entered m inner.nodes body happart, hafter, pushAll_report, report_report,
        pushAll_cons]
  | unclosed awaited opened kind name raw offset rest h hclosed ih ihAfter =>
    have happart := Node.read_apart (some kind) (kind :: opened) rest
    rw [Node.read_unclosed h hclosed, pushAll_consText, pushAll_splice]
    generalize Node.read (some kind) (kind :: opened) rest = inner at ih ihAfter hclosed happart ⊢
    obtain ⟨outer, body, hstop, hbody, hrun⟩ :=
      ih (m.enter ⟨kind, name, raw, offset, []⟩) (congrArg _ hkinds) rfl
    have hframe := kinds_entered m ⟨kind, name, raw, offset, []⟩ inner.nodes body hkinds
    rw [hclosed] at hstop
    -- The reading goes on where the body stopped, the machine goes on there without the frame.
    rw [result_dissolve hframe hstop, dissolve_entered m inner.nodes body happart,
      hstop.unclosed] at hrun
    obtain ⟨tail, found, hlast, hfound, hafter⟩ :=
      ihAfter (((m.push (.text raw)).pushAll inner.nodes).report
        (body ++ [⟨.unclosed, offset, raw⟩]))
        (by rw [kinds_report, kinds_pushAll, kinds_push, hkinds]) hawaited
    refine ⟨tail, body ++ [⟨.unclosed, offset, raw⟩] ++ found, hlast, ?_, ?_⟩
    · rw [List.append_assoc]
      exact List.perm_middle.trans ((hbody.append hfound).cons _)
    · rw [result_cons, step_enter h hkinds, hrun, hafter, pushAll_report, report_report]
  | own opened kind raw offset rest =>
    rw [Node.read_own_close]
    exact ⟨_, [], .own rfl, .nil, by rw [report_nil]; rfl⟩
  | outer awaited opened kind raw offset rest h hmem =>
    rw [Node.read_outer_close h hmem]
    exact ⟨_, [], .outer h hmem, .nil, by rw [report_nil]; rfl⟩
  | unmatched awaited opened kind raw offset rest h hmem ih =>
    obtain ⟨tail, found, hstop, hfound, hrun⟩ :=
      ih ((m.push (.text raw)).report [⟨.unmatchedClose, offset, raw⟩])
        (by rw [kinds_report, kinds_push, hkinds]) hawaited
    rw [Node.read_unmatched_close h hmem, pushAll_consText]
    refine ⟨tail, _ :: found, hstop, hfound.cons _, ?_⟩
    rw [result_cons, step, if_neg (hkinds.symm ▸ hmem), hrun, pushAll_report, report_report]
    rfl

end Machine

/-- Findings at places of their own come in one order only. -/
theorem sorted_findings {found expected : List Diagnostic} (h : found.Perm expected)
    (hexpected : expected.Pairwise fun a b => a.offset < b.offset) :
    (found.mergeSort fun a b => a.offset ≤ b.offset) = expected := by
  have hperm := (List.mergeSort_perm found fun a b => a.offset ≤ b.offset).trans h
  have hsorted : (found.mergeSort fun a b => a.offset ≤ b.offset).Pairwise
      fun a b => a.offset ≤ b.offset := by
    have hbool : (found.mergeSort fun a b => a.offset ≤ b.offset).Pairwise
        fun a b => decide (a.offset ≤ b.offset) = true := by
      apply List.pairwise_mergeSort
      · intro a b c hab hbc
        exact decide_eq_true (Nat.le_trans (of_decide_eq_true hab) (of_decide_eq_true hbc))
      · intro a b
        simpa only [Bool.or_eq_true, decide_eq_true_eq] using Nat.le_total a.offset b.offset
    simpa only [decide_eq_true_eq] using hbool
  have hnodup : (expected.map Diagnostic.offset).Nodup :=
    List.pairwise_map.2 (hexpected.imp Nat.ne_of_lt)
  apply hperm.eq_of_pairwise _ hsorted (hexpected.imp Nat.le_of_lt)
  intro a b ha hb hab hba
  exact List.inj_on_of_nodup_map hnodup (hperm.mem_iff.1 ha) hb (Nat.le_antisymm hab hba)

/-- The parser gives the nodes and the findings of the machine. -/
theorem Template.parse_eq_machine (source : String) :
    Template.parse source = Template.ofMachine (Token.scan source) := by
  obtain ⟨tail, found, hstop, hfound, hrun⟩ :=
    Machine.start.result_read none [] (Token.scan source) rfl rfl
  have hnodes : (Node.read none [] (Token.scan source)).nodes.foldl Node.push [] =
      (Template.parse source).nodes :=
    Node.foldl_push [] (Node.read_apart none [] (Token.scan source))
  have hfindings : (found.mergeSort fun a b => a.offset ≤ b.offset) =
      (Template.parse source).diagnostics :=
    sorted_findings hfound (Template.parse_ascending source)
  have htail : tail = [] := hstop.outermost
  rw [Machine.start, Machine.pushAll_outside, hnodes, htail] at hrun
  rw [Template.ofMachine, Machine.start, hrun]
  exact congrArg _ hfindings.symm

end QuotePress
