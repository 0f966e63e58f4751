import Tracecat.Authz.Controls

/-!
# Scope checks and the language of grants

A grant read as a pattern in which only `*` is special stands for a language, and a
scope check asks whether a required scope lies in it.  A grant without `*` also grants
what its action implies; a grant with `*` does not.
-/

namespace Tracecat
namespace Authz

open Glob (Token literal)

variable {grant required scope implied : String} {grants : Finset String}

/-! ## The grant language -/

/-- A character of a grant: `*` stands for any text, another one for itself. -/
def grantToken (char : Char) : Token Char :=
  if char = '*' then .anyText else literal char

/-- The scopes that a grant stands for. -/
def grantLanguage (grant : String) : Language Char :=
  Glob.language (grant.toList.map grantToken)

def Covers (grant scope : String) : Prop :=
  scope.toList ∈ grantLanguage grant

instance (grant scope : String) : Decidable (Covers grant scope) :=
  decidable_of_iff _ Glob.matchesText_iff

/-- A grant without wildcards. -/
def Exact (grant : String) : Prop := '*' ∉ grant.toList

instance (grant : String) : Decidable (Exact grant) :=
  inferInstanceAs (Decidable (_ ∉ _))

/-- `update` on a resource implies `read` on it. -/
def Implies (scope implied : String) : Prop :=
  ∃ resource : String, scope = resource ++ ":update" ∧ implied = resource ++ ":read"

/-- The resource of a scope: what stands before its action. -/
def resource (scope : String) : Option (List Char) :=
  (rsplit ':' scope.toList).map Prod.fst

/-! ## Accepted grants -/

theorem isScopeChar_plain {char : Char} (hChar : isScopeChar char = true) :
    char ≠ '?' ∧ char ≠ '[' := by
  refine ⟨?_, ?_⟩
  · rintro rfl
    exact absurd hChar (by decide)
  · rintro rfl
    exact absurd hChar (by decide)

/-- An accepted grant has no metacharacter of `fnmatch` other than `*`. -/
theorem plain_of_valid (hValid : validateScopeString grant = true) :
    ∀ char ∈ grant.toList, char ≠ '?' ∧ char ≠ '[' := by
  unfold validateScopeString at hValid
  rw [Bool.and_eq_true, List.all_eq_true] at hValid
  obtain ⟨-, hAll⟩ := hValid
  intro char hChar
  by_cases hLast : grant.toList.getLast? = some '\n'
  · rw [if_pos hLast] at hAll
    -- the line break that the dollar leaves out is no metacharacter
    obtain ⟨front, hFront⟩ := List.getLast?_eq_some_iff.mp hLast
    rw [hFront, List.dropLast_concat] at hAll
    rw [hFront, List.mem_append, List.mem_singleton] at hChar
    rcases hChar with hChar | rfl
    · exact isScopeChar_plain (hAll char hChar)
    · exact ⟨by decide, by decide⟩
  · rw [if_neg hLast] at hAll
    exact isScopeChar_plain (hAll char hChar)

theorem translate_plain {pattern : List Char} (hPlain : ∀ char ∈ pattern, char ≠ '?' ∧ char ≠ '[') :
    translate 0 pattern = pattern.map grantToken := by
  induction pattern with
  | nil => rfl
  | cons char pattern ih =>
      obtain ⟨⟨hAny, hSet⟩, hRest⟩ := List.forall_mem_cons.mp hPlain
      rw [translate, List.map_cons, ih hRest, grantToken]
      by_cases hStar : char = '*'
      · rw [if_pos hStar, if_pos hStar]
      · rw [if_neg hStar, if_neg hStar, if_neg hAny, if_neg hSet]

theorem fnmatch_iff (hValid : validateScopeString grant = true) :
    fnmatch required grant = true ↔ Covers grant required := by
  rw [fnmatch, Glob.matchesText_iff, translate_plain (plain_of_valid hValid)]
  rfl

/-! ## Grants without wildcards -/

theorem covers_of_exact (hExact : Exact grant) : Covers grant required ↔ grant = required := by
  have hTokens : grant.toList.map grantToken = grant.toList.map literal := by
    apply List.map_congr_left
    intro char hChar
    rw [grantToken, if_neg]
    rintro rfl
    exact hExact hChar
  rw [Covers, grantLanguage, hTokens, Glob.mem_language_literals]
  constructor
  · intro hSame
    exact String.toList_inj.mp hSame.symm
  · rintro rfl
    rfl

theorem covers_star : Covers "*" required := by
  show required.toList ∈ Glob.language [Token.anyText]
  rw [Glob.mem_language_anyText]
  exact ⟨[], List.nil_suffix, rfl⟩

theorem rsplit_eq_none {separator : Char} {text : List Char} :
    rsplit separator text = none ↔ separator ∉ text := by
  induction text with
  | nil => simp [rsplit]
  | cons char text ih =>
      rw [rsplit, List.mem_cons, not_or]
      cases hSplit : rsplit separator text with
      | none =>
          rw [hSplit, eq_self_iff_true, true_iff] at ih
          by_cases hChar : char = separator
          · simp [hChar]
          · simp [hChar, ih, Ne.symm hChar]
      | some parts =>
          rw [hSplit] at ih
          simpa using fun _ => by simpa using ih

theorem rsplit_eq_some_iff {separator : Char} {text before after : List Char} :
    rsplit separator text = some (before, after) ↔
      text = before ++ separator :: after ∧ separator ∉ after := by
  induction text generalizing before with
  | nil => simp [rsplit]
  | cons char text ih =>
      rw [rsplit]
      cases hSplit : rsplit separator text with
      | some parts =>
          obtain ⟨front, back⟩ := parts
          simp only [Option.some.injEq, Prod.mk.injEq]
          constructor
          · rintro ⟨rfl, rfl⟩
            obtain ⟨rfl, hAfter⟩ := ih.mp hSplit
            exact ⟨rfl, hAfter⟩
          · rintro ⟨hText, hAfter⟩
            cases before with
            | nil =>
                obtain ⟨rfl, rfl⟩ := List.cons.inj hText
                rw [rsplit_eq_none.mpr hAfter] at hSplit
                cases hSplit
            | cons first before =>
                obtain ⟨rfl, hTail⟩ := List.cons.inj hText
                have hSame := ih.mpr ⟨hTail, hAfter⟩
                rw [hSplit] at hSame
                obtain ⟨rfl, rfl⟩ := Prod.mk.inj (Option.some.inj hSame)
                exact ⟨rfl, rfl⟩
      | none =>
          have hAbsent := rsplit_eq_none.mp hSplit
          dsimp only
          by_cases hChar : char = separator
          · rw [if_pos hChar]
            subst hChar
            constructor
            · intro hSame
              obtain ⟨rfl, rfl⟩ := Prod.mk.inj (Option.some.inj hSame)
              exact ⟨rfl, hAbsent⟩
            · rintro ⟨hText, -⟩
              cases before with
              | nil =>
                  obtain ⟨-, rfl⟩ := List.cons.inj hText
                  rfl
              | cons first before =>
                  obtain ⟨-, hText⟩ := List.cons.inj hText
                  exact absurd (hText ▸ List.mem_append_right _ List.mem_cons_self) hAbsent
          · rw [if_neg hChar]
            constructor
            · intro hNone
              cases hNone
            · rintro ⟨hText, -⟩
              cases before with
              | nil => exact absurd (List.cons.inj hText).1 hChar
              | cons first before =>
                  obtain ⟨-, hText⟩ := List.cons.inj hText
                  exact absurd (hText ▸ List.mem_append_right _ List.mem_cons_self) hAbsent

theorem Implies.parts (hImplies : Implies scope implied) :
    ∃ before, scope.toList = before ++ ':' :: "update".toList ∧
      implied = String.ofList before ++ ":" ++ "read" := by
  obtain ⟨resource, rfl, rfl⟩ := hImplies
  refine ⟨resource.toList, ?_, ?_⟩
  · rw [String.toList_append]
    rfl
  · rw [String.ofList_toList, String.append_assoc]
    rfl

/-- What an accepted grant implies, by the table of actions. -/
theorem mem_impliedScopes_iff (hExact : Exact grant) :
    required ∈ impliedScopes grant ↔ Implies grant required := by
  rw [impliedScopes, if_neg hExact]
  constructor
  · intro hMem
    cases hSplit : rsplit ':' grant.toList with
    | none =>
        rw [hSplit] at hMem
        cases hMem
    | some parts =>
        obtain ⟨before, action⟩ := parts
        obtain ⟨hText, -⟩ := rsplit_eq_some_iff.mp hSplit
        rw [hSplit] at hMem
        obtain ⟨implied, hImplied, rfl⟩ := List.mem_map.mp hMem
        unfold actionImplies at hImplied
        split at hImplied
        · rename_i hAction
          rw [List.mem_singleton.mp hImplied]
          refine ⟨String.ofList before, ?_, ?_⟩
          · apply String.toList_inj.mp
            have hUpdate : action = "update".toList := by
              rw [← hAction, String.toList_ofList]
            rw [hText, String.toList_append, String.toList_ofList, hUpdate]
            rfl
          · rw [String.append_assoc]
            rfl
        · cases hImplied
  · intro hImplies
    obtain ⟨before, hText, hRequired⟩ := hImplies.parts
    have hSplit : rsplit ':' grant.toList = some (before, "update".toList) :=
      rsplit_eq_some_iff.mpr ⟨hText, by decide⟩
    rw [hSplit, hRequired]
    exact List.mem_map.mpr ⟨"read", by decide, rfl⟩

theorem Implies.resource_eq (hImplies : Implies scope implied) :
    resource scope = resource implied := by
  obtain ⟨before, hText, rfl⟩ := hImplies.parts
  have hImplied : (String.ofList before ++ ":" ++ "read").toList = before ++ ':' :: "read".toList := by
    simp
  unfold resource
  rw [hImplied, hText, rsplit_eq_some_iff.mpr ⟨rfl, by decide⟩,
    rsplit_eq_some_iff.mpr ⟨rfl, by decide⟩]
  rfl

/-! ## Checks -/

theorem scopeMatches_iff (hValid : validateScopeString grant = true) :
    scopeMatches grant required = true ↔
      Covers grant required ∨ (Exact grant ∧ Implies grant required) := by
  rw [scopeMatches]
  by_cases hStar : grant = "*"
  · rw [if_pos hStar, hStar]
    simp [covers_star]
  · rw [if_neg hStar]
    by_cases hExact : Exact grant
    · have hPlain : '*' ∉ grant.toList := hExact
      rw [if_pos hPlain, Bool.or_eq_true, decide_eq_true_eq, decide_eq_true_eq,
        mem_impliedScopes_iff hExact, covers_of_exact hExact]
      simp [hExact]
    · have hWild : ¬ '*' ∉ grant.toList := hExact
      rw [if_neg hWild, fnmatch_iff hValid]
      simp [hExact]

theorem hasScope_iff (hValid : ∀ grant ∈ grants, validateScopeString grant = true) :
    hasScope grants required = true ↔
      ∃ grant ∈ grants, Covers grant required ∨ (Exact grant ∧ Implies grant required) := by
  rw [hasScope, decide_eq_true_eq]
  exact exists_congr fun grant => and_congr_right fun hGrant => scopeMatches_iff (hValid grant hGrant)

theorem hasScope_mono {more : Finset String} (hMore : grants ⊆ more)
    (hScope : hasScope grants required = true) : hasScope more required = true := by
  rw [hasScope, decide_eq_true_eq] at hScope ⊢
  obtain ⟨grant, hGrant, hMatches⟩ := hScope
  exact ⟨grant, hMore hGrant, hMatches⟩

theorem mem_getMissingScopes {requiredScopes : Finset String} :
    scope ∈ getMissingScopes grants requiredScopes ↔
      scope ∈ requiredScopes ∧ ¬ hasScope grants scope = true := by
  rw [getMissingScopes, Finset.mem_filter, Bool.not_eq_true]

/-- All of the scopes are there when none is missing. -/
theorem hasAllScopes_iff {requiredScopes : Finset String} :
    hasAllScopes grants requiredScopes = true ↔ getMissingScopes grants requiredScopes = ∅ := by
  rw [hasAllScopes, decide_eq_true_eq, Finset.eq_empty_iff_forall_notMem]
  refine forall_congr' fun scope => ?_
  rw [mem_getMissingScopes, not_and_not_right]

/-- One of the scopes is there when not all of them are missing. -/
theorem hasAnyScope_iff {requiredScopes : Finset String} :
    hasAnyScope grants requiredScopes = true ↔
      ∃ scope ∈ requiredScopes, scope ∉ getMissingScopes grants requiredScopes := by
  rw [hasAnyScope, decide_eq_true_eq]
  refine exists_congr fun scope => and_congr_right fun hRequired => ?_
  rw [mem_getMissingScopes, not_and_not_right]
  exact ⟨fun hScope _ => hScope, fun hScope => hScope hRequired⟩

/-- What the checks make of the grants: an accepted grant stands for its language, and one
without wildcards also for what its action implies. -/
theorem scopeChecks_grantLanguage
    (hValid : ∀ grant ∈ grants, validateScopeString grant = true) :
    (∀ required, hasScope grants required = true ↔
      ∃ grant ∈ grants, Covers grant required ∨ (Exact grant ∧ Implies grant required)) ∧
    (∀ scope implied, Implies scope implied →
      (∃ grant ∈ grants, Exact grant ∧ Covers grant scope) → hasScope grants implied = true) ∧
    (∀ more required, grants ⊆ more → hasScope grants required = true →
      hasScope more required = true) ∧
    (∀ requiredScopes scope, scope ∈ getMissingScopes grants requiredScopes ↔
      scope ∈ requiredScopes ∧ ¬ hasScope grants scope = true) ∧
    (∀ requiredScopes, hasAllScopes grants requiredScopes = true ↔
      getMissingScopes grants requiredScopes = ∅) ∧
    (∀ requiredScopes, hasAnyScope grants requiredScopes = true ↔
      ∃ scope ∈ requiredScopes, scope ∉ getMissingScopes grants requiredScopes) ∧
    (∀ grant ∈ grants, ∀ required, scopeMatches grant required = true →
      ¬ Covers grant required → resource grant = resource required) := by
  refine ⟨fun _ => hasScope_iff hValid, ?_, fun _ _ => hasScope_mono,
    fun _ _ => mem_getMissingScopes, fun _ => hasAllScopes_iff, fun _ => hasAnyScope_iff, ?_⟩
  · rintro scope implied hImplies ⟨grant, hGrant, hExact, hCovers⟩
    have hSame : grant = scope := (covers_of_exact hExact).mp hCovers
    exact (hasScope_iff hValid).mpr ⟨grant, hGrant, Or.inr ⟨hExact, hSame ▸ hImplies⟩⟩
  · intro grant hGrant required hMatches hOutside
    rcases (scopeMatches_iff (hValid grant hGrant)).mp hMatches with hCovers | ⟨-, hImplies⟩
    · exact absurd hCovers hOutside
    · exact hImplies.resource_eq

/-- An exact grant beside one with wildcards. -/
theorem editorGrants_grantLanguage :
    hasScope {"case:update", "action:core.*:execute"} "case:read" = true ↔
      ∃ grant ∈ ({"case:update", "action:core.*:execute"} : Finset String),
        Covers grant "case:read" ∨ (Exact grant ∧ Implies grant "case:read") :=
  (scopeChecks_grantLanguage (by decide)).1 "case:read"

/-- A grant with a wildcard covers `update` on a resource and does not give `read` on it. -/
theorem wildcardUpdate_not_implied :
    validateScopeString "*:update" = true ∧
      Covers "*:update" "case:update" ∧ Implies "case:update" "case:read" ∧
      hasScope {"*:update"} "case:read" = false := by
  refine ⟨by decide, by decide, ⟨"case", by decide, by decide⟩, by decide⟩

end Authz
end Tracecat
