import Mathlib.Data.Finset.Basic
import Tracecat.Lib.Glob

/-!
# Scope checks

`tracecat/authz/controls.py`, with `fnmatch` of the standard library on POSIX.
-/

namespace Tracecat
namespace Authz

open Glob (Token literal)

/-! ## `fnmatch` -/

/-- The characters that a set between brackets lists. -/
def inSet : List Char → Char → Bool
  | low :: '-' :: high :: rest, char => (decide (low ≤ char) && decide (char ≤ high)) || inSet rest char
  | single :: rest, char => decide (char = single) || inSet rest char
  | [], _ => false

/-- The set after an opening bracket, and how many characters it takes.  A bracket that is
never closed is no set; a closing bracket in the first place does not close. -/
def bracketSet (pattern : List Char) : Option (Token Char × Nat) :=
  let negated := decide (pattern.head? = some '!')
  let start := if negated then 1 else 0
  let first := if (pattern.drop start).head? = some ']' then start + 1 else start
  ((pattern.drop first).findIdx? (· = ']')).map fun offset =>
    (.one fun char => negated != inSet ((pattern.take (first + offset)).drop start) char,
      first + offset + 1)

/-- `fnmatch.translate`; the first `skip` characters have been read. -/
def translate : Nat → List Char → List (Token Char)
  | _, [] => []
  | skip + 1, _ :: pattern => translate skip pattern
  | 0, char :: pattern =>
      if char = '*' then .anyText :: translate 0 pattern
      else if char = '?' then .one (fun _ => true) :: translate 0 pattern
      else if char = '[' then
        match bracketSet pattern with
        | some (token, taken) => token :: translate taken pattern
        | none => literal char :: translate 0 pattern
      else literal char :: translate 0 pattern

/-- `fnmatch(name, pat)`. -/
def fnmatch (name pattern : String) : Bool :=
  Glob.matchesText (translate 0 pattern.toList) name.toList

/-! ## Scopes -/

/-- The characters of `SCOPE_PATTERN`. -/
def isScopeChar (char : Char) : Bool :=
  (decide ('a' ≤ char) && decide (char ≤ 'z')) || (decide ('0' ≤ char) && decide (char ≤ '9')) ||
    decide (char ∈ [':', '_', '.', '*', '-'])

/-- `validate_scope_string`.  The dollar of the pattern also stands before a line break
at the end. -/
def validateScopeString (scope : String) : Bool :=
  let body :=
    if scope.toList.getLast? = some '\n' then scope.toList.dropLast else scope.toList
  !body.isEmpty && body.all isScopeChar

/-- `_ACTION_IMPLIES`. -/
def actionImplies (action : String) : List String :=
  if action = "update" then ["read"] else []

/-- `rsplit(separator, maxsplit=1)`, where the text has a separator. -/
def rsplit (separator : Char) : List Char → Option (List Char × List Char)
  | [] => none
  | char :: text =>
      match rsplit separator text with
      | some (before, after) => some (char :: before, after)
      | none => if char = separator then some ([], text) else none

/-- `_implied_scopes`. -/
def impliedScopes (grantedScope : String) : List String :=
  if '*' ∈ grantedScope.toList then []
  else
    match rsplit ':' grantedScope.toList with
    | none => []
    | some (before, action) =>
        (actionImplies (String.ofList action)).map fun implied =>
          String.ofList before ++ ":" ++ implied

/-- `scope_matches`. -/
def scopeMatches (grantedScope requiredScope : String) : Bool :=
  if grantedScope = "*" then true
  else if '*' ∉ grantedScope.toList then
    decide (grantedScope = requiredScope) || decide (requiredScope ∈ impliedScopes grantedScope)
  else fnmatch requiredScope grantedScope

/-- `has_scope`. -/
def hasScope (userScopes : Finset String) (requiredScope : String) : Bool :=
  decide (∃ granted ∈ userScopes, scopeMatches granted requiredScope = true)

/-- `has_all_scopes`. -/
def hasAllScopes (userScopes requiredScopes : Finset String) : Bool :=
  decide (∀ scope ∈ requiredScopes, hasScope userScopes scope = true)

/-- `has_any_scope`. -/
def hasAnyScope (userScopes requiredScopes : Finset String) : Bool :=
  decide (∃ scope ∈ requiredScopes, hasScope userScopes scope = true)

/-- `get_missing_scopes`. -/
def getMissingScopes (userScopes requiredScopes : Finset String) : Finset String :=
  requiredScopes.filter fun scope => hasScope userScopes scope = false

end Authz
end Tracecat
