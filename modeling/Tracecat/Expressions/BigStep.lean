import Tracecat.Expressions.Evaluator

/-!
# Big-step semantics of expressions

The meaning of a tree as a relation: a conditional demands its condition and then
the selected branch, and every other node demands its children from left to right
and then its own method.  `transformChild_iff` shows that the traversal computes
this relation, and so the result, the error and the nodes that are evaluated of
every tree of the grammar are those of the relation.
-/

namespace Tracecat

variable {ω σ κ : Type} [DecidableEq κ]

namespace ExprEvaluator

/-- The child of a conditional that is its branch: the value or the alternative. -/
def branch (selected : Bool) : Nat :=
  if selected then 0 else 2

mutual

/-- `BigStep evaluator address node world result visits next`: the node at the address,
evaluated in the world, has the result and leaves the next world; the visits are the
methods and selections that it demands, in order. -/
inductive BigStep (evaluator : ExprEvaluator ω σ κ) :
    Address → ParseTree → σ → Except Raised (PyValue ω) → List Visit → σ → Prop
  | absent (address : Address) (world : σ) :
      BigStep evaluator address .absent world (.ok .none) [] world
  | token {address : Address} {type : Terminal} {value : TokenText} {world next : σ}
      {outcome : Except PyError (PyValue ω)}
      (hMethod : (evaluator.terminal type value).run.run world = (outcome, next)) :
      BigStep evaluator address (.token type value) world
        (outcome.mapError (wrap (.token type value))) [.called address] next
  | apply {address : Address} {data : Rule} {children : List ParseTree} {world middle next : σ}
      {values : List (PyValue ω)} {visits : List Visit} {outcome : Except PyError (PyValue ω)}
      (hData : data ≠ .ternary)
      (hChildren : BigSteps evaluator address 0 children world (.ok values) visits middle)
      (hMethod : (evaluator.rule data values).run.run middle = (outcome, next)) :
      BigStep evaluator address (.tree data children) world
        (outcome.mapError (wrap (.tree data children))) (visits ++ [.called address]) next
  | operand {address : Address} {data : Rule} {children : List ParseTree} {world next : σ}
      {raised : Raised} {visits : List Visit} (hData : data ≠ .ternary)
      (hChildren : BigSteps evaluator address 0 children world (.error raised) visits next) :
      BigStep evaluator address (.tree data children) world (.error raised) visits next
  | select {address : Address} {trueNode conditionNode falseNode : ParseTree}
      {world first second next : σ} {condition : PyValue ω} {selected : Bool}
      {result : Except Raised (PyValue ω)} {before visits : List Visit}
      (hCondition : BigStep evaluator (address ++ [1]) conditionNode world (.ok condition)
        before first)
      (hTruth : (condition.truth evaluator.runtime).run.run first = (.ok selected, second))
      (hBranch : BigStep evaluator (address ++ [branch selected])
        (if selected then trueNode else falseNode) second result visits next) :
      BigStep evaluator address (.tree .ternary [trueNode, conditionNode, falseNode]) world
        result (before ++ .chose address selected :: visits) next
  | untrue {address : Address} {trueNode conditionNode falseNode : ParseTree}
      {world first next : σ} {condition : PyValue ω} {error : PyError} {before : List Visit}
      (hCondition : BigStep evaluator (address ++ [1]) conditionNode world (.ok condition)
        before first)
      (hTruth : (condition.truth evaluator.runtime).run.run first = (.error error, next)) :
      BigStep evaluator address (.tree .ternary [trueNode, conditionNode, falseNode]) world
        (.error (.exc error)) before next
  | condition {address : Address} {trueNode conditionNode falseNode : ParseTree}
      {world next : σ} {raised : Raised} {before : List Visit}
      (hCondition : BigStep evaluator (address ++ [1]) conditionNode world (.error raised)
        before next) :
      BigStep evaluator address (.tree .ternary [trueNode, conditionNode, falseNode]) world
        (.error raised) before next

/-- The children of a node from a position on; the first that raises ends them. -/
inductive BigSteps (evaluator : ExprEvaluator ω σ κ) :
    Address → Nat → List ParseTree → σ → Except Raised (List (PyValue ω)) → List Visit → σ → Prop
  | nil (address : Address) (position : Nat) (world : σ) :
      BigSteps evaluator address position [] world (.ok []) [] world
  | cons {address : Address} {position : Nat} {child : ParseTree} {children : List ParseTree}
      {world middle next : σ} {value : PyValue ω} {values : List (PyValue ω)}
      {visits later : List Visit}
      (hChild : BigStep evaluator (address ++ [position]) child world (.ok value) visits middle)
      (hChildren : BigSteps evaluator address (position + 1) children middle (.ok values) later
        next) :
      BigSteps evaluator address position (child :: children) world (.ok (value :: values))
        (visits ++ later) next
  | later {address : Address} {position : Nat} {child : ParseTree} {children : List ParseTree}
      {world middle next : σ} {value : PyValue ω} {raised : Raised} {visits later : List Visit}
      (hChild : BigStep evaluator (address ++ [position]) child world (.ok value) visits middle)
      (hChildren : BigSteps evaluator address (position + 1) children middle (.error raised) later
        next) :
      BigSteps evaluator address position (child :: children) world (.error raised)
        (visits ++ later) next
  | stop {address : Address} {position : Nat} {child : ParseTree} {children : List ParseTree}
      {world next : σ} {raised : Raised} {visits : List Visit}
      (hChild : BigStep evaluator (address ++ [position]) child world (.error raised) visits
        next) :
      BigSteps evaluator address position (child :: children) world (.error raised) visits next

end

variable {evaluator : ExprEvaluator ω σ κ} {address : Address} {world next : σ}
  {result : Except Raised (PyValue ω)} {visits : List Visit}

/-! ## Equations of the traversal -/

theorem callUserfunc_eq {obj : ParseTree} {method : PyM σ (PyValue ω)}
    {outcome : Except PyError (PyValue ω)} (hMethod : method.run.run world = (outcome, next)) :
    callUserfunc address obj method world =
      ⟨outcome.mapError (wrap obj), [.called address], next⟩ := by
  rw [callUserfunc, Logged.call, hMethod]

omit [DecidableEq κ] in
theorem truthOf_eq {condition : PyValue ω} {outcome : Except PyError Bool}
    (hTruth : (condition.truth evaluator.runtime).run.run world = (outcome, next)) :
    evaluator.truthOf condition world = ⟨outcome.mapError .exc, [], next⟩ := by
  rw [truthOf, Logged.silent, hTruth]

/-- A node other than a conditional, once its children have values. -/
theorem transformTree_apply {data : Rule} {children : List ParseTree} {middle : σ}
    {walks : List (Logged σ Visit Raised (PyValue ω))} {values : List (PyValue ω)}
    {outcome : Except PyError (PyValue ω)} (hData : data ≠ .ternary)
    (hWalks : Logged.all walks world = ⟨.ok values, visits, middle⟩)
    (hMethod : (evaluator.rule data values).run.run middle = (outcome, next)) :
    evaluator.transformTree address data children walks world =
      ⟨outcome.mapError (wrap (.tree data children)), visits ++ [.called address], next⟩ := by
  unfold transformTree
  rw [if_neg hData, Logged.bind_ok hWalks, callUserfunc_eq hMethod]
  rfl

/-- A node other than a conditional, of which a child raises. -/
theorem transformTree_operand {data : Rule} {children : List ParseTree} {raised : Raised}
    {walks : List (Logged σ Visit Raised (PyValue ω))} (hData : data ≠ .ternary)
    (hWalks : Logged.all walks world = ⟨.error raised, visits, next⟩) :
    evaluator.transformTree address data children walks world =
      ⟨.error raised, visits, next⟩ := by
  unfold transformTree
  rw [if_neg hData, Logged.bind_error hWalks]

section Conditional

variable {children : List ParseTree} {first second : σ} {condition : PyValue ω}
  {trueNode conditionNode falseNode : Logged σ Visit Raised (PyValue ω)} {before : List Visit}

theorem transformTree_select {selected : Bool}
    (hCondition : conditionNode world = ⟨.ok condition, before, first⟩)
    (hTruth : (condition.truth evaluator.runtime).run.run first = (.ok selected, second))
    (hBranch : (if selected then trueNode else falseNode) second = ⟨result, visits, next⟩) :
    evaluator.transformTree address .ternary children [trueNode, conditionNode, falseNode]
        world = ⟨result, before ++ .chose address selected :: visits, next⟩ := by
  have hTell := Logged.tell_apply (ε := Raised) (Visit.chose address selected) second
  rw [transformTree, if_pos rfl, Logged.bind_ok hCondition, Logged.bind_ok (truthOf_eq hTruth),
    Logged.bind_ok hTell, hBranch]
  rfl

theorem transformTree_untrue {error : PyError}
    (hCondition : conditionNode world = ⟨.ok condition, before, first⟩)
    (hTruth : (condition.truth evaluator.runtime).run.run first = (.error error, next)) :
    evaluator.transformTree address .ternary children [trueNode, conditionNode, falseNode]
        world = ⟨.error (.exc error), before, next⟩ := by
  rw [transformTree, if_pos rfl, Logged.bind_ok hCondition,
    Logged.bind_error (truthOf_eq hTruth)]
  simp [LoggedRun.after]

theorem transformTree_condition {raised : Raised}
    (hCondition : conditionNode world = ⟨.error raised, before, next⟩) :
    evaluator.transformTree address .ternary children [trueNode, conditionNode, falseNode]
        world = ⟨.error raised, before, next⟩ := by
  rw [transformTree, if_pos rfl, Logged.bind_error hCondition]

end Conditional

/-! ## The traversal and the relation -/

/-- The traversal returns what the relation says. -/
theorem transformChild_of_bigStep {node : ParseTree}
    (hStep : BigStep evaluator address node world result visits next) :
    evaluator.transformChild address node world = ⟨result, visits, next⟩ := by
  refine @BigStep.rec ω σ κ _ evaluator
    (fun address node world result visits next _ =>
      evaluator.transformChild address node world = ⟨result, visits, next⟩)
    (fun address position children world results visits next _ =>
      Logged.all (evaluator.transformChildren address position children) world =
        ⟨results, visits, next⟩)
    ?absent ?token ?apply ?operand ?select ?untrue ?condition ?nil ?cons ?later ?stop
    _ _ _ _ _ _ hStep
  case absent =>
    intro address world
    rw [transformChild, Logged.pure_apply]
  case token =>
    intro address type value world next outcome hMethod
    rw [transformChild, callUserfunc_eq hMethod]
  case apply =>
    intro address data children world middle next values visits outcome hData _ hMethod ih
    rw [transformChild]
    exact transformTree_apply hData ih hMethod
  case operand =>
    intro address data children world next raised visits hData _ ih
    rw [transformChild]
    exact transformTree_operand hData ih
  case select =>
    intro address trueNode conditionNode falseNode world first second next condition selected
      result before visits _ hTruth _ ihCondition ihBranch
    rw [transformChild]
    refine transformTree_select ihCondition hTruth ?_
    cases selected
    · exact ihBranch
    · exact ihBranch
  case untrue =>
    intro address trueNode conditionNode falseNode world first next condition error before _
      hTruth ihCondition
    rw [transformChild]
    exact transformTree_untrue ihCondition hTruth
  case condition =>
    intro address trueNode conditionNode falseNode world next raised before _ ihCondition
    rw [transformChild]
    exact transformTree_condition ihCondition
  case nil =>
    intro address position world
    rw [transformChildren, Logged.all, Logged.pure_apply]
  case cons =>
    intro address position child children world middle next value values visits later _ _
      ihChild ihChildren
    rw [transformChildren, Logged.all, Logged.bind_ok ihChild, Logged.bind_ok ihChildren]
    simp [LoggedRun.after]
  case later =>
    intro address position child children world middle next value raised visits later _ _
      ihChild ihChildren
    rw [transformChildren, Logged.all, Logged.bind_ok ihChild, Logged.bind_error ihChildren]
    rfl
  case stop =>
    intro address position child children world next raised visits _ ihChild
    rw [transformChildren, Logged.all, Logged.bind_error ihChild]

mutual

theorem exists_bigStep (evaluator : ExprEvaluator ω σ κ) (address : Address) (world : σ) :
    (node : ParseTree) → node.Conditionals →
      ∃ result visits next, BigStep evaluator address node world result visits next
  | .absent, _ => ⟨_, _, _, .absent address world⟩
  | .token _ _, _ => ⟨_, _, _, .token rfl⟩
  | .tree data children, hNode => by
      obtain ⟨hThree, hChildren⟩ := hNode
      by_cases hData : data = .ternary
      · subst hData
        obtain ⟨trueNode, conditionNode, falseNode, rfl⟩ := List.length_eq_three.mp (hThree rfl)
        obtain ⟨hTrue, hCondition, hFalse, -⟩ := hChildren
        obtain ⟨outcome, before, first, hFirst⟩ :=
          exists_bigStep evaluator (address ++ [1]) world conditionNode hCondition
        match outcome, hFirst with
        | .error raised, hFirst => exact ⟨_, _, _, .condition hFirst⟩
        | .ok condition, hFirst =>
            match hTruth : (condition.truth evaluator.runtime).run.run first with
            | (.error error, second) => exact ⟨_, _, _, .untrue hFirst hTruth⟩
            | (.ok true, second) =>
                obtain ⟨result, visits, next, hBranch⟩ :=
                  exists_bigStep evaluator (address ++ [branch true]) second trueNode hTrue
                exact ⟨_, _, _, .select hFirst hTruth hBranch⟩
            | (.ok false, second) =>
                obtain ⟨result, visits, next, hBranch⟩ :=
                  exists_bigStep evaluator (address ++ [branch false]) second falseNode hFalse
                exact ⟨_, _, _, .select hFirst hTruth hBranch⟩
      · obtain ⟨results, visits, next, hSteps⟩ :=
          exists_bigSteps evaluator address 0 world children hChildren
        match results, hSteps with
        | .error raised, hSteps => exact ⟨_, _, _, .operand hData hSteps⟩
        | .ok values, hSteps => exact ⟨_, _, _, .apply hData hSteps rfl⟩

theorem exists_bigSteps (evaluator : ExprEvaluator ω σ κ) (address : Address) (position : Nat)
    (world : σ) :
    (children : List ParseTree) → ParseTree.ChildConditionals children →
      ∃ results visits next,
        BigSteps evaluator address position children world results visits next
  | [], _ => ⟨_, _, _, .nil address position world⟩
  | child :: children, hChildren => by
      obtain ⟨outcome, visits, middle, hChild⟩ :=
        exists_bigStep evaluator (address ++ [position]) world child hChildren.1
      match outcome, hChild with
      | .error raised, hChild => exact ⟨_, _, _, .stop hChild⟩
      | .ok value, hChild =>
          obtain ⟨results, later, next, hSteps⟩ :=
            exists_bigSteps evaluator address (position + 1) middle children hChildren.2
          match results, hSteps with
          | .error raised, hSteps => exact ⟨_, _, _, .later hChild hSteps⟩
          | .ok values, hSteps => exact ⟨_, _, _, .cons hChild hSteps⟩

end

/-! ## Visits of a child -/

theorem child_unique {first second : Nat} {below : Address}
    (hFirst : address ++ [first] <+: below) (hSecond : address ++ [second] <+: below) :
    first = second := by
  have hLength : (address ++ [first]).length = (address ++ [second]).length := by simp
  have hEq := (List.prefix_of_prefix_length_le hFirst hSecond hLength.le).eq_of_length hLength
  simpa using hEq

theorem BigStep.within {node : ParseTree}
    (hStep : BigStep evaluator address node world result visits next) :
    ∀ visit ∈ visits, address <+: visit.address := by
  have hBelow : ∀ {address : Address} {position : Nat} {visit : Visit},
      address ++ [position] <+: visit.address → address <+: visit.address :=
    fun hVisit => (List.prefix_append _ _).trans hVisit
  refine @BigStep.rec ω σ κ _ evaluator
    (fun address _ _ _ visits _ _ => ∀ visit ∈ visits, address <+: visit.address)
    (fun address position _ _ _ visits _ _ => ∀ visit ∈ visits, ∃ index, position ≤ index ∧
      address ++ [index] <+: visit.address)
    ?absent ?token ?apply ?operand ?select ?untrue ?condition ?nil ?cons ?later ?stop
    _ _ _ _ _ _ hStep
  case absent => simp
  case token =>
    intro address type value world next outcome _ visit hVisit
    rw [List.mem_singleton.mp hVisit]
    exact List.prefix_refl _
  case apply =>
    intro address data children world middle next values visits outcome _ _ _ ih visit hVisit
    rcases List.mem_append.mp hVisit with hVisit | hVisit
    · obtain ⟨_, -, hIndex⟩ := ih visit hVisit
      exact hBelow hIndex
    · rw [List.mem_singleton.mp hVisit]
      exact List.prefix_refl _
  case operand =>
    intro address data children world next raised visits _ _ ih visit hVisit
    obtain ⟨_, -, hIndex⟩ := ih visit hVisit
    exact hBelow hIndex
  case select =>
    intro address _ _ _ world first second next condition selected result before visits _ _ _
      ihCondition ihBranch visit hVisit
    rcases List.mem_append.mp hVisit with hVisit | hVisit
    · exact hBelow (ihCondition visit hVisit)
    · rcases List.mem_cons.mp hVisit with rfl | hVisit
      · exact List.prefix_refl _
      · exact hBelow (ihBranch visit hVisit)
  case untrue =>
    intro address _ _ _ world first next condition error before _ _ ihCondition visit hVisit
    exact hBelow (ihCondition visit hVisit)
  case condition =>
    intro address _ _ _ world next raised before _ ihCondition visit hVisit
    exact hBelow (ihCondition visit hVisit)
  case nil => simp
  case cons =>
    intro address position _ _ world middle next value values visits later _ _ ihChild ihChildren
      visit hVisit
    rcases List.mem_append.mp hVisit with hVisit | hVisit
    · exact ⟨position, le_rfl, ihChild visit hVisit⟩
    · obtain ⟨index, hIndex, hBelow⟩ := ihChildren visit hVisit
      exact ⟨index, by omega, hBelow⟩
  case later =>
    intro address position _ _ world middle next value raised visits later _ _ ihChild ihChildren
      visit hVisit
    rcases List.mem_append.mp hVisit with hVisit | hVisit
    · exact ⟨position, le_rfl, ihChild visit hVisit⟩
    · obtain ⟨index, hIndex, hBelow⟩ := ihChildren visit hVisit
      exact ⟨index, by omega, hBelow⟩
  case stop =>
    intro address position _ _ world next raised visits _ ihChild visit hVisit
    exact ⟨position, le_rfl, ihChild visit hVisit⟩

/-- The visits at or below an address are those of one evaluation of its node, or there
are none. -/
def Part (evaluator : ExprEvaluator ω σ κ) (address : Address) (node : ParseTree)
    (visits : List Visit) : Prop :=
  (∀ visit ∈ visits, ¬ address <+: visit.address) ∨
    ∃ world result part next, BigStep evaluator address node world result part next ∧
      part ⊆ visits ∧ ∀ visit ∈ visits, address <+: visit.address → visit ∈ part

namespace Part

variable {node : ParseTree}

theorem of_bigStep (hStep : BigStep evaluator address node world result visits next) :
    Part evaluator address node visits :=
  .inr ⟨world, result, visits, next, hStep, fun _ hVisit => hVisit, fun _ hVisit _ => hVisit⟩

/-- Visits elsewhere can stand around those of the node. -/
theorem around (before after : List Visit) (hPart : Part evaluator address node visits)
    (hBefore : ∀ visit ∈ before, ¬ address <+: visit.address)
    (hAfter : ∀ visit ∈ after, ¬ address <+: visit.address) :
    Part evaluator address node (before ++ visits ++ after) := by
  rcases hPart with hNone | ⟨world, result, part, next, hStep, hSub, hPart⟩
  · refine .inl fun visit hVisit => ?_
    simp only [List.mem_append] at hVisit
    rcases hVisit with (hVisit | hVisit) | hVisit
    · exact hBefore visit hVisit
    · exact hNone visit hVisit
    · exact hAfter visit hVisit
  · refine .inr ⟨world, result, part, next, hStep, fun visit hVisit => ?_, ?_⟩
    · exact List.mem_append_left _ (List.mem_append_right _ (hSub hVisit))
    · intro visit hVisit hBelow
      simp only [List.mem_append] at hVisit
      rcases hVisit with (hVisit | hVisit) | hVisit
      · exact absurd hBelow (hBefore visit hVisit)
      · exact hPart visit hVisit hBelow
      · exact absurd hBelow (hAfter visit hVisit)

/-- A selection at the address is among the visits of the node or nowhere. -/
theorem elsewhere {position other : Nat}
    (hVisits : ∀ visit ∈ visits, address ++ [other] <+: visit.address) (hOther : other ≠ position) :
    ∀ visit ∈ visits, ¬ address ++ [position] <+: visit.address := fun visit hVisit hBelow =>
  hOther (child_unique (hVisits visit hVisit) hBelow)

end Part

/-- An entry about a node itself is not about one of its children. -/
theorem not_below_self (position : Nat) : ¬ address ++ [position] <+: address := by
  intro hPrefix
  have := hPrefix.length_le
  simp at this

section Children

variable {children : List ParseTree} {position : Nat}
  {results : Except Raised (List (PyValue ω))}

theorem BigSteps.within
    (hSteps : BigSteps evaluator address position children world results visits next) :
    ∀ visit ∈ visits, ∃ place, position ≤ place ∧ address ++ [place] <+: visit.address := by
  induction children generalizing position world results visits with
  | nil =>
      cases hSteps
      simp
  | cons child children ih =>
      have hHead : ∀ {part : List Visit},
          (∀ visit ∈ part, address ++ [position] <+: visit.address) →
          ∀ visit ∈ part, ∃ place, position ≤ place ∧ address ++ [place] <+: visit.address :=
        fun hPart visit hVisit => ⟨position, le_rfl, hPart visit hVisit⟩
      have hTail : ∀ {part : List Visit},
          (∀ visit ∈ part, ∃ place, position + 1 ≤ place ∧ address ++ [place] <+: visit.address) →
          ∀ visit ∈ part, ∃ place, position ≤ place ∧ address ++ [place] <+: visit.address := by
        intro part hPart visit hVisit
        obtain ⟨place, hPlace, hBelow⟩ := hPart visit hVisit
        exact ⟨place, by omega, hBelow⟩
      cases hSteps with
      | cons hChild hChildren =>
          exact List.forall_mem_append.mpr ⟨hHead hChild.within, hTail (ih hChildren)⟩
      | later hChild hChildren =>
          exact List.forall_mem_append.mpr ⟨hHead hChild.within, hTail (ih hChildren)⟩
      | stop hChild => exact hHead hChild.within

theorem BigSteps.part
    (hSteps : BigSteps evaluator address position children world results visits next)
    {index : Nat} {child : ParseTree} (hChild : children[index]? = some child) :
    Part evaluator (address ++ [position + index]) child visits := by
  induction children generalizing position world results visits index next with
  | nil => cases hChild
  | cons head children ih =>
      -- The visits of the first child, and those of the others.
      have hSplit : ∀ {first second : List Visit} {middle last : σ}
          {value : Except Raised (PyValue ω)} {values : Except Raised (List (PyValue ω))},
          BigStep evaluator (address ++ [position]) head world value first middle →
          BigSteps evaluator address (position + 1) children middle values second last →
          Part evaluator (address ++ [position + index]) child (first ++ second) := by
        intro first second middle last value values hFirst hSecond
        cases index with
        | zero =>
            cases hChild
            have hAfter : ∀ visit ∈ second, ¬ address ++ [position] <+: visit.address := by
              intro visit hVisit hBelow
              obtain ⟨place, hPlace, hAt⟩ := hSecond.within visit hVisit
              have hEq := child_unique hBelow hAt
              omega
            simpa using (Part.of_bigStep hFirst).around [] second (by simp) hAfter
        | succ index =>
            have hPart := ih hSecond hChild
            rw [Nat.add_right_comm, Nat.add_assoc] at hPart
            have hBefore := Part.elsewhere hFirst.within (show position ≠ position + (index + 1) by omega)
            simpa using hPart.around first [] hBefore (by simp)
      cases hSteps with
      | cons hHead hChildren => exact hSplit hHead hChildren
      | later hHead hChildren => exact hSplit hHead hChildren
      | stop hHead =>
          cases index with
          | zero =>
              cases hChild
              exact .of_bigStep hHead
          | succ index => exact .inl (Part.elsewhere hHead.within (by omega))

end Children

theorem BigStep.part {data : Rule} {children : List ParseTree}
    (hStep : BigStep evaluator address (.tree data children) world result visits next)
    {index : Nat} {child : ParseTree} (hChild : children[index]? = some child) :
    Part evaluator (address ++ [index]) child visits := by
  cases hStep with
  | apply _ hChildren _ =>
      have hPart := hChildren.part hChild
      rw [Nat.zero_add] at hPart
      have hAfter : ∀ visit ∈ [Visit.called address], ¬ address ++ [index] <+: visit.address := by
        intro visit hVisit hBelow
        rw [List.mem_singleton.mp hVisit] at hBelow
        exact not_below_self index hBelow
      simpa using hPart.around [] [.called address] (by simp) hAfter
  | operand _ hChildren =>
      have hPart := hChildren.part hChild
      rwa [Nat.zero_add] at hPart
  | @select _ trueNode _ falseNode _ _ _ _ _ selected _ before later hCondition _ hBranch =>
      have hChose : ∀ visit ∈ [Visit.chose address selected],
          ¬ address ++ [index] <+: visit.address := by
        intro visit hVisit hBelow
        rw [List.mem_singleton.mp hVisit] at hBelow
        exact not_below_self index hBelow
      by_cases hCond : index = 1
      · subst hCond
        cases hChild
        have hAfter : ∀ visit ∈ .chose address selected :: later,
            ¬ address ++ [1] <+: visit.address := by
          intro visit hVisit
          rcases List.mem_cons.mp hVisit with rfl | hVisit
          · exact hChose _ List.mem_cons_self
          · refine Part.elsewhere hBranch.within ?_ visit hVisit
            cases selected <;> decide
        simpa using (Part.of_bigStep hCondition).around [] _ (by simp) hAfter
      · by_cases hSelected : index = branch selected
        · subst hSelected
          obtain rfl : (if selected then trueNode else falseNode) = child := by
            cases selected
            · exact Option.some.inj hChild
            · exact Option.some.inj hChild
          have hBefore : ∀ visit ∈ before ++ [.chose address selected],
              ¬ address ++ [branch selected] <+: visit.address :=
            List.forall_mem_append.mpr
              ⟨Part.elsewhere hCondition.within (Ne.symm hCond), hChose⟩
          simpa using (Part.of_bigStep hBranch).around _ [] hBefore (by simp)
        · refine .inl fun visit hVisit => ?_
          rcases List.mem_append.mp hVisit with hVisit | hVisit
          · exact Part.elsewhere hCondition.within (Ne.symm hCond) visit hVisit
          · rcases List.mem_cons.mp hVisit with rfl | hVisit
            · exact hChose _ List.mem_cons_self
            · exact Part.elsewhere hBranch.within (Ne.symm hSelected) visit hVisit
  | untrue hCondition _ =>
      by_cases hCond : index = 1
      · subst hCond
        cases hChild
        exact .of_bigStep hCondition
      · exact .inl (Part.elsewhere hCondition.within (Ne.symm hCond))
  | condition hCondition =>
      by_cases hCond : index = 1
      · subst hCond
        cases hChild
        exact .of_bigStep hCondition
      · exact .inl (Part.elsewhere hCondition.within (Ne.symm hCond))

/-! ## Branches -/

/-- A visit in a branch of the conditional at an address: the conditional selected this
branch and not the other. -/
def Selects (visits : List Visit) (address : Address) : Prop :=
  ∀ selected, ∀ visit ∈ visits, address ++ [branch selected] <+: visit.address →
    .chose address selected ∈ visits ∧ .chose address (!selected) ∉ visits

theorem BigStep.selects {children : List ParseTree}
    (hStep : BigStep evaluator address (.tree .ternary children) world result visits next) :
    Selects visits address := by
  intro selected visit hVisit hBelow
  have hOne : ∀ selected, 1 ≠ branch selected := by decide
  cases hStep with
  | apply hData => exact absurd rfl hData
  | operand hData => exact absurd rfl hData
  | @select _ _ _ _ _ _ _ _ _ chosen _ before later hCondition _ hBranch =>
      have hSelf : ∀ selected, ∀ {part : List Visit} {position : Nat},
          (∀ visit ∈ part, address ++ [position] <+: visit.address) →
          .chose address selected ∉ part := fun selected part position hPart hMem =>
        not_below_self position (hPart _ hMem)
      -- The visit is in the branch that was chosen: elsewhere it would be below two children.
      have hChosen : selected = chosen := by
        rcases List.mem_append.mp hVisit with hVisit | hVisit
        · exact absurd hBelow (Part.elsewhere hCondition.within (hOne selected) visit hVisit)
        · rcases List.mem_cons.mp hVisit with rfl | hVisit
          · exact absurd hBelow (not_below_self _)
          · have hEq := child_unique hBelow (hBranch.within visit hVisit)
            revert hEq
            cases selected <;> cases chosen <;> decide
      subst hChosen
      refine ⟨List.mem_append_right _ List.mem_cons_self, fun hMem => ?_⟩
      rcases List.mem_append.mp hMem with hMem | hMem
      · exact hSelf _ hCondition.within hMem
      · rcases List.mem_cons.mp hMem with hEq | hMem
        · cases selected <;> cases hEq
        · exact hSelf _ hBranch.within hMem
  | untrue hCondition _ =>
      exact absurd hBelow (Part.elsewhere hCondition.within (hOne selected) visit hVisit)
  | condition hCondition =>
      exact absurd hBelow (Part.elsewhere hCondition.within (hOne selected) visit hVisit)

/-- Every conditional of a tree selects the branch whose nodes are visited. -/
theorem BigStep.selects_at {node : ParseTree} {place : Address} {children : List ParseTree}
    (hStep : BigStep evaluator address node world result visits next)
    (hAt : node.at? place = some (.tree .ternary children)) :
    Selects visits (address ++ place) := by
  induction place generalizing address node world result visits next with
  | nil =>
      rw [List.append_nil]
      cases node with
      | token => cases hAt
      | absent => cases hAt
      | tree rule nodes =>
          cases hAt
          exact hStep.selects
  | cons index place ih =>
      cases node with
      | token => cases hAt
      | absent => cases hAt
      | tree data nodes =>
          rw [ParseTree.at?] at hAt
          cases hChild : nodes[index]? with
          | none => rw [hChild] at hAt; cases hAt
          | some child =>
              rw [hChild] at hAt
              have hAddress : address ++ index :: place = address ++ [index] ++ place := by simp
              have hUnder : ∀ {rest : Address} {below : Address},
                  address ++ index :: place ++ rest <+: below → address ++ [index] <+: below := by
                intro rest below hBelow
                rw [hAddress, List.append_assoc] at hBelow
                exact (List.prefix_append _ _).trans hBelow
              intro selected visit hVisit hBelow
              rcases hStep.part hChild with hNone | ⟨_, _, part, _, hPart, hSub, hMem⟩
              · exact absurd (hUnder hBelow) (hNone visit hVisit)
              · have hIn := hMem visit hVisit (hUnder hBelow)
                obtain ⟨hChose, hOther⟩ := ih hPart hAt selected visit hIn (hAddress ▸ hBelow)
                rw [hAddress]
                refine ⟨hSub hChose, fun hChosen => hOther (hMem _ hChosen ?_)⟩
                exact List.prefix_append _ _

/-! ## Conditionals are lazy -/

/-- What it means that an evaluation is lazy. -/
structure LazyEvaluation (evaluator : ExprEvaluator ω σ κ) (expr : ExprTree) (world : σ) :
    Prop where
  /-- The evaluation is one of the semantics, up to the report of what was raised. -/
  meaning : ∃ result visits next,
    BigStep evaluator [] expr.tree world result visits next ∧
      evaluator.evaluate expr.tree world =
        ⟨result.mapError (evaluator.report expr.tree), visits, next⟩
  /-- The semantics has no other. -/
  determined : ∀ {result visits next}, BigStep evaluator [] expr.tree world result visits next →
    evaluator.evaluate expr.tree world =
      ⟨result.mapError (evaluator.report expr.tree), visits, next⟩
  /-- A node in a branch of a conditional is evaluated only if the branch was selected. -/
  branches : ∀ {place children}, expr.tree.at? place = some (.tree .ternary children) →
    Selects (evaluator.evaluate expr.tree world).log place

theorem evaluate_eq {evaluator : ExprEvaluator ω σ κ} {tree : ParseTree} {world next : σ}
    {result : Except Raised (PyValue ω)} {visits : List Visit}
    (hStep : BigStep evaluator [] tree world result visits next) :
    evaluator.evaluate tree world = ⟨result.mapError (evaluator.report tree), visits, next⟩ := by
  rw [evaluate, transformChild_of_bigStep hStep]

/-- The evaluation of every expression is lazy, whatever the operand holds and whatever
functions and operators do. -/
theorem evaluate_lazy (evaluator : ExprEvaluator ω σ κ) (expr : ExprTree) (world : σ) :
    LazyEvaluation evaluator expr world := by
  obtain ⟨result, visits, next, hStep⟩ :=
    exists_bigStep evaluator [] world expr.tree expr.conditionals
  refine ⟨⟨result, visits, next, hStep, evaluate_eq hStep⟩, evaluate_eq, ?_⟩
  intro place children hAt
  rw [evaluate_eq hStep]
  exact hStep.selects_at hAt

end ExprEvaluator

end Tracecat
