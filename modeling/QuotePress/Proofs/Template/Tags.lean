import QuotePress.Proofs.Template.Spelling

/-! # Directives as texts

The written forms of a substitution, of an opening and of a close. Only an opening has more than
one: any gap may stand before its name. -/
namespace QuotePress

open Token (openBrace closeBrace)

def IsGap (gap : String) : Prop :=
  gap ≠ "" ∧ ∀ c ∈ gap.toList, isGapChar c = true

def variableTag (name : String) : String := "\x7b\x7b" ++ name ++ "\x7d\x7d"

namespace BlockKind

def openTag (kind : BlockKind) (gap name : String) : String :=
  "\x7b\x7b#" ++ kind.keyword ++ gap ++ name ++ "\x7d\x7d"

def closeTag (kind : BlockKind) : String := "\x7b\x7b/" ++ kind.keyword ++ "\x7d\x7d"

def enclose (kind : BlockKind) (name body : String) : String :=
  kind.openTag " " name ++ body ++ kind.closeTag

end BlockKind

theorem isGap_space : IsGap " " := by
  refine ⟨by decide, ?_⟩
  intro c hc
  have hchars : " ".toList = [' '] := rfl
  rw [hchars] at hc
  cases List.mem_singleton.1 hc
  rfl

theorem toList_variableTag (name : String) : (variableTag name).toList =
    openBrace :: openBrace :: (name.toList ++ [closeBrace, closeBrace]) := by
  have hopen : "\x7b\x7b".toList = [openBrace, openBrace] := rfl
  have hclose : "\x7d\x7d".toList = [closeBrace, closeBrace] := rfl
  simp only [variableTag, String.toList_append, hopen, hclose]
  rfl

theorem toList_openTag (kind : BlockKind) (gap name : String) : (kind.openTag gap name).toList =
    openBrace :: openBrace ::
      (('#' :: (kind.keyword.toList ++ (gap.toList ++ name.toList))) ++
        [closeBrace, closeBrace]) := by
  have hopen : "\x7b\x7b#".toList = [openBrace, openBrace, '#'] := rfl
  have hclose : "\x7d\x7d".toList = [closeBrace, closeBrace] := rfl
  simp only [BlockKind.openTag, String.toList_append, hopen, hclose]
  simp

theorem toList_closeTag (kind : BlockKind) : kind.closeTag.toList =
    openBrace :: openBrace :: (('/' :: kind.keyword.toList) ++ [closeBrace, closeBrace]) := by
  have hopen : "\x7b\x7b/".toList = [openBrace, openBrace, '/'] := rfl
  have hclose : "\x7d\x7d".toList = [closeBrace, closeBrace] := rfl
  simp only [BlockKind.closeTag, String.toList_append, hopen, hclose]
  simp

namespace Directive

theorem written_variable_iff {name tag : String} :
    (Directive.variable name).Written tag.toList ↔
    isName name.toList = true ∧ tag = variableTag name := by
  constructor
  · rintro ⟨inner, hinner, htag⟩
    cases hinner with
    | substitution hname =>
      rw [String.toList_ofList]
      refine ⟨hname, String.toList_inj.1 ?_⟩
      rw [htag, toList_variableTag, String.toList_ofList]
  · rintro ⟨hname, rfl⟩
    have hspelled := Spelling.substitution hname
    rw [String.ofList_toList] at hspelled
    exact ⟨_, hspelled, toList_variableTag name⟩

theorem written_opening_iff {kind : BlockKind} {name tag : String} :
    (opening kind name).Written tag.toList ↔
      isName name.toList = true ∧ ∃ gap, IsGap gap ∧ tag = kind.openTag gap name := by
  constructor
  · rintro ⟨inner, hinner, htag⟩
    cases hinner with
    | @opening _ gap word hne hgap hname =>
      rw [String.toList_ofList]
      refine ⟨hname, String.ofList gap, ⟨by simpa using hne, by rwa [String.toList_ofList]⟩,
        String.toList_inj.1 ?_⟩
      rw [htag, toList_openTag, String.toList_ofList, String.toList_ofList]
  · rintro ⟨hname, gap, ⟨hne, hgap⟩, rfl⟩
    have hspelled := @Spelling.opening kind _ _ (by simpa using hne) hgap hname
    rw [String.ofList_toList] at hspelled
    exact ⟨_, hspelled, toList_openTag kind gap name⟩

theorem written_closing_iff {kind : BlockKind} {tag : String} :
    (closing kind).Written tag.toList ↔ tag = kind.closeTag := by
  constructor
  · rintro ⟨inner, hinner, htag⟩
    cases hinner with
    | closing =>
      apply String.toList_inj.1
      rw [htag, toList_closeTag]
  · rintro rfl
    exact ⟨_, .closing kind, toList_closeTag kind⟩

end Directive

end QuotePress
