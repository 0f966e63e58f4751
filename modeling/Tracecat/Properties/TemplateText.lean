import Tracecat.Expressions.TemplateLaw

/-!
# Templates lose no text

`eval_templated_object` of a nested object gives the value that the object stands for
if and only if no string of it is a template with a text after it that ends as a
template does, and rewritten keys stay keys of one dict.
-/

namespace Tracecat
namespace Templating

open Folders (strip)
open Stateful (exec exec_pure exec_bind_eq_ok exec_map_eq_ok)

variable {ω σ κ : Type} [DecidableEq κ] {evaluation : Evaluation ω σ κ}

/-! ## Strings -/

theorem matchTemplate_found {inner : TokenText} (hInner : Inner inner) (last : TokenText) :
    evaluation.templateExpression (template inner ++ last) = evaluation.result (strip inner) := by
  unfold Evaluation.templateExpression
  rw [matchTemplate_template hInner last]
  rfl

/-- A match in a string gives `str` of the value of its expression. -/
theorem exec_evalExpressionOp {inner : TokenText} (hInner : Inner inner) {world final : σ}
    {text : TokenText} :
    exec (evaluation.evalExpressionOp (found inner)) world = (.ok text, final) ↔
      ∃ value next, exec (evaluation.result (strip inner)) world = (.ok value, next) ∧
        exec (evaluation.str value) next = (.ok text, final) := by
  have hResult := @matchTemplate_found ω σ κ _ evaluation inner hInner []
  rw [List.append_nil] at hResult
  unfold Evaluation.evalExpressionOp
  rw [exec_bind_eq_ok, show (found inner).template = template inner from rfl, hResult]
  simp only [Stateful.exec_tryCatch_throw]

theorem substitute_literal (literal : TokenText) (rest : List Segment) :
    evaluation.substitute (literal.map .char ++ rest) =
      (literal ++ ·) <$> evaluation.substitute rest := by
  induction literal with
  | nil => exact (id_map (evaluation.substitute rest)).symm
  | cons char literal ih =>
      rw [List.map_cons, List.cons_append, Evaluation.substitute, ih, Functor.map_map]
      rfl

theorem exec_substitute {parts : List (TokenText × TokenText)} {last : TokenText}
    (hLiterals : ∀ part ∈ parts, ¬ opening <:+: part.1) (hLast : ¬ opening <:+: last)
    (hInners : ∀ part ∈ parts, Inner part.2) {world final : σ} {text : TokenText} :
    exec (evaluation.substitute (segments 0 (textOf parts last))) world = (.ok text, final) ↔
      exec (rendered evaluation parts last) world = (.ok text, final) := by
  rw [segments_textOf hLiterals hLast hInners]
  clear hLiterals hLast
  induction parts generalizing world text with
  | nil =>
      have hEnd := @substitute_literal ω σ κ _ evaluation last []
      rw [List.append_nil] at hEnd
      rw [List.foldr_nil, hEnd, exec_map_eq_ok]
      constructor
      · rintro ⟨value, hNil, rfl⟩
        cases hNil
        rw [List.append_nil]
        rfl
      · intro hPure
        cases hPure
        exact ⟨[], rfl, List.append_nil last⟩
  | cons part parts ih =>
      have hRest := fun (world : σ) (text : TokenText) =>
        @ih (fun other hOther => hInners other (List.mem_cons_of_mem _ hOther)) world text
      rw [List.foldr_cons, substitute_literal, exec_map_eq_ok, Evaluation.substitute]
      show _ ↔ exec (rendered evaluation ((part.1, part.2) :: parts) last) world = _
      unfold rendered
      simp only [exec_bind_eq_ok, exec_evalExpressionOp (hInners part List.mem_cons_self)]
      constructor
      · rintro ⟨rest, ⟨shown, next, ⟨value, middle, hValue, hShown⟩, texts, after, hTexts, hPure⟩,
          rfl⟩
        cases hPure
        exact ⟨value, middle, hValue, shown, next, hShown, texts, final,
          (hRest next texts).mp hTexts, rfl⟩
      · rintro ⟨value, middle, hValue, shown, next, hShown, texts, after, hTexts, hPure⟩
        cases hPure
        exact ⟨shown ++ texts, ⟨shown, next, ⟨value, middle, hValue, hShown⟩, texts, final,
          (hRest next texts).mpr hTexts, rfl⟩, rfl⟩

/-- A string that begins as a template does has no literal before its first template. -/
theorem opening_prefix_iff {literal rest : TokenText} (hLiteral : ¬ opening <:+: literal)
    (hRest : ∃ more, rest = '$' :: more) (hSome : opening <+: literal ++ rest) : literal = [] := by
  by_contra hNonempty
  exact opening_absent hLiteral (Or.inr hRest) hNonempty hSome

/-- Where a text after `}}` ends in `}}`. -/
theorem closing_suffix_iff (inner last : TokenText) :
    closing <:+ template inner ++ last ↔ last = [] ∨ EndsAsTemplate last := by
  unfold EndsAsTemplate
  induction last using List.reverseRecOn with
  | nil =>
      rw [List.append_nil]
      exact ⟨fun _ => Or.inl rfl, fun _ => List.suffix_append _ _⟩
  | append_singleton last char _ =>
      induction last using List.reverseRecOn with
      | nil =>
          constructor
          · rintro ⟨before, hBefore⟩
            right
            left
            have hEnd := congrArg List.getLast? hBefore
            rw [closing, List.nil_append, List.getLast?_append, List.getLast?_append] at hEnd
            exact congrArg (fun found => [found]) (Option.some.inj hEnd).symm
          · rintro (hNil | hOne | hTwo)
            · cases hNil
            · rw [hOne]
              exact ⟨opening ++ inner ++ ['}'], by simp [template, closing]⟩
            · have hLength := hTwo.length_le
              exact absurd hLength (by simp [closing])
      | append_singleton last before _ =>
          have hTwo (text : TokenText) : closing <:+ text ++ ([before] ++ [char]) ↔
              before = '}' ∧ char = '}' := by
            constructor
            · rintro ⟨start, hStart⟩
              have hPair := List.append_inj_right' hStart rfl
              simp [closing] at hPair
              exact ⟨hPair.1.symm, hPair.2.symm⟩
            · rintro ⟨rfl, rfl⟩
              exact List.suffix_append _ _
          rw [List.append_assoc last, ← List.append_assoc, hTwo, hTwo]
          constructor
          · exact fun hBoth => Or.inr (Or.inr hBoth)
          · rintro (hNil | hOne | hBoth)
            · simp at hNil
            · have hLength := congrArg List.length hOne
              simp at hLength
            · exact hBoth

/-- Which strings the source takes for a template and nothing else. -/
theorem isTemplateOnly_iff (line : Alternation) :
    (Evaluation.isTemplateOnly line.text && (finditer line.text).length = 1) = true ↔
      ∃ inner, line.parts = [([], inner)] ∧ (line.last = [] ∨ EndsAsTemplate line.last) := by
  obtain ⟨parts, last, hLiterals, hLast, hInners⟩ := line
  show (Evaluation.isTemplateOnly (textOf parts last) &&
      decide ((finditer (textOf parts last)).length = 1)) = true ↔
    ∃ inner, parts = [([], inner)] ∧ (last = [] ∨ EndsAsTemplate last)
  unfold Evaluation.isTemplateOnly
  rw [finditer_textOf hLiterals hLast hInners, List.length_map, Bool.and_eq_true,
    Bool.and_eq_true, decide_eq_true_eq, List.isPrefixOf_iff_prefix, List.isSuffixOf_iff_suffix]
  constructor
  · rintro ⟨⟨hPrefix, hSuffix⟩, hLength⟩
    obtain ⟨part, rfl⟩ := List.length_eq_one_iff.mp hLength
    obtain ⟨literal, inner⟩ := part
    have hLiteral : literal = [] := opening_prefix_iff (hLiterals _ List.mem_cons_self)
      ⟨_, rfl⟩ hPrefix
    subst hLiteral
    exact ⟨inner, rfl, (closing_suffix_iff inner last).mp hSuffix⟩
  · rintro ⟨inner, rfl, hEnd⟩
    exact ⟨⟨⟨_, rfl⟩, (closing_suffix_iff inner last).mpr hEnd⟩, rfl⟩

theorem operator_of_only {line : Alternation} {inner : TokenText}
    (hParts : line.parts = [([], inner)]) (hEnd : line.last = [] ∨ EndsAsTemplate line.last) :
    evaluation.operator line.text = evaluation.result (strip inner) := by
  have hInner : Inner inner := line.inners ([], inner) (by rw [hParts]; exact List.mem_cons_self)
  unfold Evaluation.operator
  rw [if_pos ((isTemplateOnly_iff line).mpr ⟨inner, hParts, hEnd⟩)]
  rw [Alternation.text, hParts]
  exact matchTemplate_found hInner line.last

theorem exec_operator_of_clean {line : Alternation} (hClean : line.Clean) {world final : σ}
    {value : PyValue ω} :
    exec (evaluation.operator line.text) world = (.ok value, final) ↔
      exec (valueOfLine evaluation line) world = (.ok value, final) := by
  by_cases hOnly : ∃ inner, line.parts = [([], inner)] ∧ line.last = []
  · obtain ⟨inner, hParts, hLast⟩ := hOnly
    rw [operator_of_only hParts (Or.inl hLast), valueOfLine, hParts, hLast]
  · have hNotOnly : ¬ (Evaluation.isTemplateOnly line.text &&
        (finditer line.text).length = 1) = true := by
      rw [isTemplateOnly_iff]
      rintro ⟨inner, hParts, hLast | hEnds⟩
      · exact hOnly ⟨inner, hParts, hLast⟩
      · exact hClean inner hParts hEnds
    have hRendered : valueOfLine evaluation line =
        .str <$> rendered evaluation line.parts line.last := by
      unfold valueOfLine
      split
      · rename_i inner hParts hLast
        exact absurd ⟨inner, hParts, hLast⟩ hOnly
      · rfl
    unfold Evaluation.operator
    rw [if_neg hNotOnly, hRendered, exec_map_eq_ok, exec_map_eq_ok]
    simp only [Alternation.text, exec_substitute line.literals line.lastLiteral line.inners]

/-- A string that is not clean loses the text after its template. -/
theorem clean_of_exec_operator {line : Alternation} {world final : σ} {value : PyValue ω}
    (hValue : exec (valueOfLine evaluation line) world = (.ok value, final))
    (hSame : (exec (evaluation.operator line.text) world).1 = .ok value) : line.Clean := by
  intro inner hParts hEnds
  rw [operator_of_only hParts (Or.inr hEnds)] at hSame
  have hLast : line.last ≠ [] := by
    intro hNil
    rw [hNil] at hEnds
    exact absurd hEnds (by decide)
  have hRendered : valueOfLine evaluation line =
      .str <$> rendered evaluation [([], inner)] line.last := by
    unfold valueOfLine
    rw [hParts]
    split
    · rename_i hNil
      exact absurd hNil hLast
    · rfl
  rw [hRendered, exec_map_eq_ok] at hValue
  obtain ⟨text, hText, rfl⟩ := hValue
  unfold rendered at hText
  simp only [exec_bind_eq_ok] at hText
  obtain ⟨result, next, hResult, shown, middle, hShown, rest, after, hRest, hPure⟩ := hText
  rw [hResult] at hSame
  have hStr : result = .str text := Except.ok.inj hSame
  -- The template gives a text, which the value of the string goes on after.
  rw [hStr] at hShown
  cases hShown
  cases hRest
  have hAppend : text ++ line.last = text := Except.ok.inj (congrArg Prod.fst hPure)
  exact hLast (List.append_right_eq_self.mp hAppend)

/-! ## Entries of a dict -/

section Entries

variable {rt : Runtime ω σ κ}

theorem setEntry_of_apart {entries : List (PyValue ω × PyValue ω)} {key value : PyValue ω}
    (hApart : ∀ entry ∈ entries, entry.1.hashKey rt ≠ key.hashKey rt) :
    PyValue.setEntry rt key value entries = entries ++ [(key, value)] := by
  induction entries with
  | nil => rfl
  | cons entry entries ih =>
      rw [PyValue.setEntry, if_neg (hApart entry List.mem_cons_self),
        ih fun other hOther => hApart other (List.mem_cons_of_mem _ hOther)]
      rfl

theorem length_setEntry (entries : List (PyValue ω × PyValue ω)) (key value : PyValue ω) :
    (PyValue.setEntry rt key value entries).length ≤ entries.length + 1 ∧
      ((PyValue.setEntry rt key value entries).length = entries.length + 1 →
        ∀ entry ∈ entries, entry.1.hashKey rt ≠ key.hashKey rt) := by
  induction entries with
  | nil => exact ⟨Nat.le_refl 1, fun _ entry hEntry => absurd hEntry List.not_mem_nil⟩
  | cons entry entries ih =>
      rw [PyValue.setEntry]
      by_cases hKey : entry.1.hashKey rt = key.hashKey rt
      · rw [if_pos hKey]
        simp only [List.length_cons]
        exact ⟨by omega, fun hGrown => absurd hGrown (by omega)⟩
      · rw [if_neg hKey]
        simp only [List.length_cons]
        refine ⟨by omega, fun hGrown other hOther => ?_⟩
        rcases List.mem_cons.mp hOther with rfl | hMem
        · exact hKey
        · exact ih.2 (by omega) other hMem

theorem exec_setitem {entries result : List (PyValue ω × PyValue ω)} {key value : PyValue ω}
    {world final : σ} :
    exec (PyValue.setitem rt entries key value) world = (.ok result, final) ↔
      key.hashKey rt ≠ none ∧ PyValue.setEntry rt key value entries = result ∧ world = final := by
  unfold PyValue.setitem
  cases key.hashKey rt with
  | none =>
      constructor
      · intro hError
        cases hError
      · intro hBoth
        exact absurd rfl hBoth.1
  | some hash =>
      constructor
      · intro hPure
        cases hPure
        exact ⟨Option.some_ne_none hash, rfl, rfl⟩
      · rintro ⟨-, rfl, rfl⟩
        rfl

/-- The comprehension adds at most an entry for each of the dict, and where it adds one for
each, what it had stays. -/
theorem evalEntries_extends {entries built final : List (PyValue ω × PyValue ω)}
    {world after : σ}
    (hEntries : exec (evaluation.evalEntries built entries) world = (.ok final, after)) :
    final.length ≤ built.length + entries.length ∧
      (final.length = built.length + entries.length → ∃ tail, final = built ++ tail) := by
  induction entries generalizing built world with
  | nil =>
      cases hEntries
      exact ⟨Nat.le_refl _, fun _ => ⟨[], (List.append_nil _).symm⟩⟩
  | cons entry entries ih =>
      obtain ⟨key, value⟩ := entry
      unfold Evaluation.evalEntries at hEntries
      simp only [exec_bind_eq_ok, exec_setitem] at hEntries
      obtain ⟨newKey, first, -, newValue, second, -, grown, third, ⟨-, hGrown, -⟩, hRest⟩ := hEntries
      have hLength := @length_setEntry ω σ κ _ evaluation.evaluator.runtime built newKey newValue
      rw [hGrown] at hLength
      obtain ⟨hLe, hSplit⟩ := ih hRest
      rw [List.length_cons]
      refine ⟨by omega, fun hFinal => ?_⟩
      obtain ⟨tail, hTail⟩ := hSplit (by omega)
      rw [← hGrown, setEntry_of_apart (hLength.2 (by omega))] at hTail
      exact ⟨(newKey, newValue) :: tail, by rw [hTail, List.append_assoc, List.singleton_append]⟩

end Entries

/-! ## Objects -/

theorem evalTemplatedObject_atomic {value : PyValue ω} (hAtomic : Atomic value) :
    evaluation.evalTemplatedObject value = pure value := by
  cases value with
  | str text => exact hAtomic.elim
  | list items => exact hAtomic.elim
  | dict entries => exact hAtomic.elim
  | _ => rfl

theorem evalKey_of_noText {value : PyValue ω} (hNoText : ∀ text, value ≠ .str text) :
    evaluation.evalKey value = pure value := by
  cases value with
  | str text => exact absurd rfl (hNoText text)
  | _ => rfl

theorem exec_evalKey_of_clean {key : TemplatedKey ω} (hClean : key.Clean) {world final : σ}
    {value : PyValue ω} : exec (evaluation.evalKey key.source) world = (.ok value, final) ↔
      exec (valueOfKey evaluation key) world = (.ok value, final) := by
  cases key with
  | text line => exact exec_operator_of_clean hClean
  | other found hNoText =>
      show exec (evaluation.evalKey found) world = _ ↔ _
      rw [evalKey_of_noText hNoText]
      exact Iff.rfl

theorem clean_of_exec_evalKey {key : TemplatedKey ω} {world final : σ} {value : PyValue ω}
    (hValue : exec (valueOfKey evaluation key) world = (.ok value, final))
    (hSame : (exec (evaluation.evalKey key.source) world).1 = .ok value) : key.Clean := by
  cases key with
  | text line => exact clean_of_exec_operator hValue hSame
  | other found hNoText => exact trivial

omit [DecidableEq κ] in
theorem exec_of_fst {α : Type} {code : PyM σ α} {world : σ} {value : α}
    (hFirst : (exec code world).1 = .ok value) : ∃ final, exec code world = (.ok value, final) :=
  ⟨(exec code world).2, Prod.ext hFirst rfl⟩

theorem length_entryValues {entries : List (TemplatedKey ω × Templated ω)} {world final : σ}
    {results : List (PyValue ω × PyValue ω)}
    (hValues : exec (entryValues evaluation entries) world = (.ok results, final)) :
    results.length = entries.length := by
  induction entries generalizing world results with
  | nil =>
      cases hValues
      rfl
  | cons entry entries ih =>
      obtain ⟨key, value⟩ := entry
      unfold entryValues at hValues
      simp only [exec_bind_eq_ok] at hValues
      obtain ⟨_, _, -, _, _, -, rest, _, hRest, hPure⟩ := hValues
      cases hPure
      rw [List.length_cons, List.length_cons, ih hRest]

theorem length_entrySources (entries : List (TemplatedKey ω × Templated ω)) :
    (Templated.entrySources entries).length = entries.length := by
  induction entries with
  | nil => rfl
  | cons entry entries ih =>
      obtain ⟨key, value⟩ := entry
      rw [Templated.entrySources, List.length_cons, List.length_cons, ih]

/-- Every key of the entries is new and has a hash. -/
def NewKeys (rt : Runtime ω σ κ) (built results : List (PyValue ω × PyValue ω)) : Prop :=
  (∀ result ∈ results, result.1.hashKey rt ≠ none) ∧
    (∀ entry ∈ built, ∀ result ∈ results, entry.1.hashKey rt ≠ result.1.hashKey rt) ∧
    results.Pairwise fun result other => result.1.hashKey rt ≠ other.1.hashKey rt

omit [DecidableEq κ] in
theorem newKeys_nil_iff {rt : Runtime ω σ κ} {results : List (PyValue ω × PyValue ω)} :
    NewKeys rt [] results ↔ Templated.DistinctKeys rt (results.map Prod.fst) := by
  unfold NewKeys Templated.DistinctKeys
  rw [List.forall_mem_map, List.pairwise_map]
  constructor
  · exact fun hNew => ⟨hNew.1, hNew.2.2⟩
  · exact fun hDistinct => ⟨hDistinct.1, fun _ hNone => absurd hNone List.not_mem_nil, hDistinct.2⟩

omit [DecidableEq κ] in
theorem newKeys_cons_iff {rt : Runtime ω σ κ} {built results : List (PyValue ω × PyValue ω)}
    {result : PyValue ω × PyValue ω} : NewKeys rt built (result :: results) ↔
      result.1.hashKey rt ≠ none ∧ (∀ entry ∈ built, entry.1.hashKey rt ≠ result.1.hashKey rt) ∧
        NewKeys rt (built ++ [result]) results := by
  unfold NewKeys
  simp only [List.forall_mem_cons, List.pairwise_cons, List.forall_mem_append]
  constructor
  · rintro ⟨⟨hHash, hHashes⟩, hBuilt, hFirst, hRest⟩
    exact ⟨hHash, fun entry hEntry => (hBuilt entry hEntry).1, hHashes,
      ⟨fun entry hEntry => (hBuilt entry hEntry).2, hFirst,
        fun _ hNone => absurd hNone List.not_mem_nil⟩, hRest⟩
  · rintro ⟨hHash, hBuilt, hHashes, ⟨hOthers, hFirst, -⟩, hRest⟩
    exact ⟨⟨hHash, hHashes⟩, fun entry hEntry => ⟨hBuilt entry hEntry, hOthers entry hEntry⟩,
      hFirst, hRest⟩

mutual

theorem eval_of_clean : ∀ (object : Templated ω) {world final : σ} {value : PyValue ω},
    object.Clean → object.KeysApart evaluation.evaluator.runtime value →
      exec (valueOf evaluation object) world = (.ok value, final) →
        exec (evaluation.evalTemplatedObject object.source) world = (.ok value, final)
  | .text _, _, _, _, hClean, _, hValue => (exec_operator_of_clean hClean).mpr hValue
  | .list items, _, _, _, hClean, hApart, hValue => by
      obtain ⟨values, hValues, rfl⟩ := exec_map_eq_ok.mp hValue
      exact exec_map_eq_ok.mpr ⟨values, evalItems_of_clean items hClean hApart hValues, rfl⟩
  | .dict entries, _, _, _, hClean, hApart, hValue => by
      obtain ⟨results, hResults, rfl⟩ := exec_map_eq_ok.mp hValue
      refine exec_map_eq_ok.mpr ⟨results, ?_, rfl⟩
      have hNew := newKeys_nil_iff.mpr hApart.1
      exact evalEntries_of_clean entries [] hClean hApart.2 hNew hResults
  | .other found hAtomic, world, _, _, _, _, hValue => by
      show exec (evaluation.evalTemplatedObject found) world = _
      rw [evalTemplatedObject_atomic hAtomic]
      exact hValue

theorem evalItems_of_clean : ∀ (items : List (Templated ω)) {world final : σ}
    {values : List (PyValue ω)}, Templated.CleanItems items →
      Templated.ItemsApart evaluation.evaluator.runtime items values →
        exec (valuesOf evaluation items) world = (.ok values, final) →
          exec (evaluation.evalItems (Templated.sources items)) world = (.ok values, final)
  | [], _, _, _, _, _, hValues => hValues
  | item :: items, _, _, _, hClean, hApart, hValues => by
      unfold valuesOf at hValues
      simp only [exec_bind_eq_ok] at hValues
      obtain ⟨value, next, hValue, rest, after, hRest, hPure⟩ := hValues
      cases hPure
      unfold Templated.sources Evaluation.evalItems
      simp only [exec_bind_eq_ok]
      exact ⟨value, next, eval_of_clean item hClean.1 hApart.1 hValue, rest, _,
        evalItems_of_clean items hClean.2 hApart.2 hRest, rfl⟩

theorem evalEntries_of_clean : ∀ (entries : List (TemplatedKey ω × Templated ω))
    (built : List (PyValue ω × PyValue ω)) {world final : σ}
    {results : List (PyValue ω × PyValue ω)}, Templated.CleanEntries entries →
      Templated.EntriesApart evaluation.evaluator.runtime entries results →
        NewKeys evaluation.evaluator.runtime built results →
          exec (entryValues evaluation entries) world = (.ok results, final) →
            exec (evaluation.evalEntries built (Templated.entrySources entries)) world =
              (.ok (built ++ results), final)
  | [], built, _, _, _, _, _, _, hResults => by
      cases hResults
      rw [List.append_nil]
      rfl
  | (key, value) :: entries, built, _, _, _, hClean, hApart, hNew, hResults => by
      unfold entryValues at hResults
      simp only [exec_bind_eq_ok] at hResults
      obtain ⟨newKey, first, hKey, newValue, second, hValue, rest, after, hRest, hPure⟩ := hResults
      cases hPure
      obtain ⟨hHash, hBuilt, hOthers⟩ := newKeys_cons_iff.mp hNew
      unfold Templated.entrySources Evaluation.evalEntries
      simp only [exec_bind_eq_ok, exec_setitem]
      refine ⟨newKey, first, (exec_evalKey_of_clean hClean.1).mpr hKey, newValue, second,
        eval_of_clean value hClean.2.1 hApart.1 hValue, built ++ [(newKey, newValue)], second,
        ⟨hHash, setEntry_of_apart hBuilt, rfl⟩, ?_⟩
      have hTail := evalEntries_of_clean entries (built ++ [(newKey, newValue)]) hClean.2.2
        hApart.2 hOthers hRest
      rwa [List.append_assoc, List.singleton_append] at hTail

end

mutual

/-- An object that gets the value that it stands for is clean, and its dicts keep their
keys. -/
theorem clean_of_eval : ∀ (object : Templated ω) {world final : σ} {value : PyValue ω},
    exec (valueOf evaluation object) world = (.ok value, final) →
      (exec (evaluation.evalTemplatedObject object.source) world).1 = .ok value →
        object.Clean ∧ object.KeysApart evaluation.evaluator.runtime value
  | .text _, _, _, _, hValue, hSame => ⟨clean_of_exec_operator hValue hSame, trivial⟩
  | .list items, world, _, _, hValue, hSame => by
      obtain ⟨values, hValues, rfl⟩ := exec_map_eq_ok.mp hValue
      obtain ⟨final, hFinal⟩ := exec_of_fst hSame
      obtain ⟨found, hFound, hList⟩ := exec_map_eq_ok.mp hFinal
      have hItems := PyValue.list.inj hList
      subst hItems
      exact clean_of_evalItems items hValues (congrArg Prod.fst hFound)
  | .dict entries, world, _, _, hValue, hSame => by
      obtain ⟨results, hResults, rfl⟩ := exec_map_eq_ok.mp hValue
      obtain ⟨final, hFinal⟩ := exec_of_fst hSame
      obtain ⟨found, hFound, hDict⟩ := exec_map_eq_ok.mp hFinal
      have hEntries := PyValue.dict.inj hDict
      subst hEntries
      obtain ⟨hClean, hApart, hNew⟩ :=
        clean_of_evalEntries entries [] hResults (congrArg Prod.fst hFound)
      exact ⟨hClean, newKeys_nil_iff.mp hNew, hApart⟩
  | .other _ _, _, _, _, _, _ => ⟨trivial, trivial⟩

theorem clean_of_evalItems : ∀ (items : List (Templated ω)) {world final : σ}
    {values : List (PyValue ω)},
    exec (valuesOf evaluation items) world = (.ok values, final) →
      (exec (evaluation.evalItems (Templated.sources items)) world).1 = .ok values →
        Templated.CleanItems items ∧
          Templated.ItemsApart evaluation.evaluator.runtime items values
  | [], _, _, _, _, _ => ⟨trivial, trivial⟩
  | item :: items, _, _, _, hValues, hSame => by
      unfold valuesOf at hValues
      simp only [exec_bind_eq_ok] at hValues
      obtain ⟨value, next, hValue, rest, after, hRest, hPure⟩ := hValues
      cases hPure
      obtain ⟨final, hFinal⟩ := exec_of_fst hSame
      unfold Templated.sources Evaluation.evalItems at hFinal
      simp only [exec_bind_eq_ok] at hFinal
      obtain ⟨found, middle, hFound, others, last, hOthers, hLast⟩ := hFinal
      cases hLast
      obtain ⟨hClean, hApart⟩ := clean_of_eval item hValue (congrArg Prod.fst hFound)
      -- The first item leaves the same world behind, and the rest follows from it.
      rw [eval_of_clean item hClean hApart hValue] at hFound
      cases hFound
      obtain ⟨hCleanRest, hApartRest⟩ :=
        clean_of_evalItems items hRest (congrArg Prod.fst hOthers)
      exact ⟨⟨hClean, hCleanRest⟩, hApart, hApartRest⟩

theorem clean_of_evalEntries : ∀ (entries : List (TemplatedKey ω × Templated ω))
    (built : List (PyValue ω × PyValue ω)) {world final : σ}
    {results : List (PyValue ω × PyValue ω)},
    exec (entryValues evaluation entries) world = (.ok results, final) →
      (exec (evaluation.evalEntries built (Templated.entrySources entries)) world).1 =
          .ok (built ++ results) →
        Templated.CleanEntries entries ∧
          Templated.EntriesApart evaluation.evaluator.runtime entries results ∧
            NewKeys evaluation.evaluator.runtime built results
  | [], built, _, _, _, hResults, _ => by
      cases hResults
      exact ⟨trivial, trivial, fun _ hNone => absurd hNone List.not_mem_nil,
        fun _ _ _ hNone => absurd hNone List.not_mem_nil, List.Pairwise.nil⟩
  | (key, value) :: entries, built, world, _, _, hResults, hSame => by
      unfold entryValues at hResults
      simp only [exec_bind_eq_ok] at hResults
      obtain ⟨newKey, first, hKey, newValue, second, hValue, rest, after, hRest, hPure⟩ := hResults
      cases hPure
      obtain ⟨last, hLast⟩ := exec_of_fst hSame
      unfold Templated.entrySources Evaluation.evalEntries at hLast
      simp only [exec_bind_eq_ok, exec_setitem] at hLast
      obtain ⟨foundKey, _, hFoundKey, foundValue, middle, hFoundValue, grown, _,
        ⟨hHash, hGrown, rfl⟩, hOthers⟩ := hLast
      -- The entries are as many as the object has, so each was new and stays.
      have hLength := length_entryValues hRest
      have hSources := length_entrySources entries
      obtain ⟨hLe, hSplit⟩ := evalEntries_extends hOthers
      have hSet := @length_setEntry ω σ κ _ evaluation.evaluator.runtime built foundKey foundValue
      rw [hGrown] at hSet
      rw [List.length_append, List.length_cons] at hLe hSplit
      have hApartBuilt := hSet.2 (by omega)
      obtain ⟨tail, hTail⟩ := hSplit (by omega)
      rw [← hGrown, setEntry_of_apart hApartBuilt, List.append_assoc, List.singleton_append] at hTail
      obtain ⟨hPair, rfl⟩ := List.cons.inj (List.append_cancel_left hTail)
      obtain ⟨rfl, rfl⟩ := Prod.mk.inj hPair
      -- From here on both evaluations go on in the same world.
      have hCleanKey := clean_of_exec_evalKey hKey (congrArg Prod.fst hFoundKey)
      rw [(exec_evalKey_of_clean hCleanKey).mpr hKey] at hFoundKey
      cases hFoundKey
      obtain ⟨hClean, hApart⟩ := clean_of_eval value hValue (congrArg Prod.fst hFoundValue)
      rw [eval_of_clean value hClean hApart hValue] at hFoundValue
      cases hFoundValue
      rw [← hGrown, setEntry_of_apart hApartBuilt] at hOthers
      have hRestSame : (exec (evaluation.evalEntries (built ++ [(newKey, newValue)])
          (Templated.entrySources entries)) second).1 =
            .ok (built ++ [(newKey, newValue)] ++ rest) := by
        rw [hOthers, List.append_assoc, List.singleton_append]
      obtain ⟨hCleanRest, hApartRest, hNew⟩ :=
        clean_of_evalEntries entries (built ++ [(newKey, newValue)]) hRest hRestSame
      exact ⟨⟨hCleanKey, hClean, hCleanRest⟩, ⟨hApart, hApartRest⟩,
        newKeys_cons_iff.mpr ⟨hHash, hApartBuilt, hNew⟩⟩

end

/-- Template substitution gives the value that an object stands for, with every literal
kept and every string rewritten, if and only if no string is a template before a text that
ends as a template does, and the rewritten keys of each dict are distinct keys. -/
theorem template_substitution_iff (object : Templated ω) {world final : σ} {value : PyValue ω}
    (hValue : exec (valueOf evaluation object) world = (.ok value, final)) :
    (exec (evaluation.evalTemplatedObject object.source) world).1 = .ok value ↔
      object.Clean ∧ object.KeysApart evaluation.evaluator.runtime value := by
  constructor
  · exact clean_of_eval object hValue
  · rintro ⟨hClean, hApart⟩
    rw [eval_of_clean object hClean hApart hValue]

/-! ## Runs -/

/-- What an evaluation of numerals needs of the language. -/
def numeralRuntime : Runtime Unit Unit Unit where
  className _ := "object"
  repr _ := "object"
  hashKey _ := none
  isMapping _ := false
  isSequence _ := false
  isInt _ := false
  isIterable _ := false
  truth _ := pure true
  items _ := pure []
  getitem _ _ := throw (.typeError "object is not subscriptable")
  neg _ := throw (.typeError "bad operand type for unary -")
  pos _ := throw (.typeError "bad operand type for unary +")
  iterableExpr _ _ := ()
  number _ := throw (.valueError "could not convert string to float")
  operators _ _ _ := throw (.typeError "unsupported operand types")
  functionMapping _ := none
  builtinTypeMapping _ := none
  evalJsonpath _ _ _ := pure .none
  pretty _ := ""
  visitErrorText _ error := error.message

/-- The parser and `str` on numerals. -/
def numeralEvaluation : Evaluation Unit Unit Unit where
  parse text :=
    if text.all Char.isDigit then .ok (.tree .literal [.token .numericLiteral text])
    else .error "No terminal matches"
  evaluator := { runtime := numeralRuntime, operand := .none, strict := false }
  strOther
    | .int value => pure (toString value).toList
    | _ => pure []

theorem inner_one : Inner " 1 ".toList where
  closed := by decide
  visible := ⟨'1', by decide, by decide⟩

/-- `${{ 1 }} }}`. -/
def closingTail : Alternation where
  parts := [([], " 1 ".toList)]
  last := " \x7d\x7d".toList
  literals := by decide
  lastLiteral := by decide
  inners := List.forall_mem_singleton.mpr inner_one

/-- `a }} ${{ 1 }}!`. -/
def closingLiteral : Alternation where
  parts := [("a \x7d\x7d ".toList, " 1 ".toList)]
  last := "!".toList
  literals := by decide
  lastLiteral := by decide
  inners := List.forall_mem_singleton.mpr inner_one

/-- A text with closing braces before a template stays. -/
theorem closingLiteral_substituted :
    (exec (numeralEvaluation.evalTemplatedObject (Templated.text closingLiteral).source) ()).1 =
      .ok (.str "a \x7d\x7d 1!".toList) := by
  have hValue : exec (valueOf numeralEvaluation (.text closingLiteral)) () =
      (.ok (.str "a \x7d\x7d 1!".toList), ()) := by
    show exec (PyValue.str <$> rendered numeralEvaluation [("a \x7d\x7d ".toList, " 1 ".toList)]
      "!".toList) () = _
    rfl
  refine (template_substitution_iff (.text closingLiteral) hValue).mpr ⟨?_, trivial⟩
  intro inner hParts
  have hFirst : "a \x7d\x7d ".toList = [] := congrArg Prod.fst (List.cons.inj hParts).1
  exact absurd hFirst (by decide)

/-- A text with closing braces after a template is lost. -/
theorem closingTail_lost :
    closingTail.text = "$\x7b\x7b 1 \x7d\x7d \x7d\x7d".toList ∧
      exec (valueOf numeralEvaluation (.text closingTail)) () =
          (.ok (.str "1 \x7d\x7d".toList), ()) ∧
        (exec (numeralEvaluation.evalTemplatedObject (.str closingTail.text)) ()).1 ≠
          .ok (.str "1 \x7d\x7d".toList) := by
  refine ⟨by decide, ?_, ?_⟩
  · show exec (PyValue.str <$> rendered numeralEvaluation [([], " 1 ".toList)]
      " \x7d\x7d".toList) () = _
    rfl
  · have hLost : exec (numeralEvaluation.evalTemplatedObject (.str closingTail.text)) () =
        (.ok (.int 1), ()) := by
      show exec (numeralEvaluation.operator closingTail.text) () = _
      have hEnds : EndsAsTemplate closingTail.last := by decide
      rw [operator_of_only rfl (Or.inr hEnds)]
      rfl
    rw [hLost]
    intro hSame
    cases hSame

end Templating
end Tracecat
