import Mathlib.Data.List.Induction
import Mathlib.Data.List.Nodup
import Parametric.Feature.Rebuild
import Parametric.Proofs.SortedMap
/-! Rebuilds, feature by feature.

A feature is built from the shapes among the results before it. So what a
rebuild does at one place depends only on the plan up to there.
-/

set_option autoImplicit false

namespace Parametric

variable {σ : Type}

def gather (shapes : SortedMap OpId BuiltShape)
    (results : List (OpId × Except KernelError BuiltShape)) : SortedMap OpId BuiltShape :=
  results.foldl (fun shapes e => match e.2 with
    | .ok shape => shapes.insert e.1 shape
    | .error _ => shapes) shapes

def buildOne (kernel : Kernel σ) (shapes : SortedMap OpId BuiltShape) (op : PlannedOp) :
    StateM σ (Except KernelError BuiltShape) :=
  match inputShapes shapes op.inputs with
  | .error e => pure (.error e)
  | .ok inputs => kernel.build op inputs

theorem buildAll_cons (kernel : Kernel σ) (shapes : SortedMap OpId BuiltShape) (op : PlannedOp)
    (rest : List PlannedOp) : buildAll kernel shapes (op :: rest) = (do
      let result ← buildOne kernel shapes op
      let results ← buildAll kernel (gather shapes [(op.id, result)]) rest
      return (op.id, result) :: results) := by
  rw [buildAll]
  unfold buildOne
  cases inputShapes shapes op.inputs with
  | error e => rfl
  | ok inputs =>
    refine congrArg (kernel.build op inputs >>= ·) (funext fun result => ?_)
    cases result <;> rfl

theorem buildAll_concat (kernel : Kernel σ) (shapes : SortedMap OpId BuiltShape)
    (plan : List PlannedOp) (op : PlannedOp) : buildAll kernel shapes (plan ++ [op]) = (do
      let earlier ← buildAll kernel shapes plan
      let result ← buildOne kernel (gather shapes earlier) op
      return earlier ++ [(op.id, result)]) := by
  induction plan generalizing shapes with
  | nil => simp [buildAll_cons, buildAll, gather]
  | cons first rest ih =>
    simp only [List.cons_append, buildAll_cons, ih, bind_assoc, pure_bind]
    rfl

theorem split_unique {α β : Type} (key : α → β) {a b c d : List α} {x y : α}
    (distinct : ((a ++ x :: b).map key).Nodup) (same : a ++ x :: b = c ++ y :: d)
    (keys : key x = key y) : a = c ∧ x = y := by
  induction a generalizing c with
  | nil =>
    cases c with
    | nil => exact ⟨rfl, (List.cons.inj same).1⟩
    | cons first rest =>
      obtain ⟨rfl, tail⟩ := List.cons.inj same
      have absent := (List.nodup_cons.mp distinct).1
      rw [tail, keys] at absent
      exact absurd (List.mem_map_of_mem List.mem_append_cons_self) absent
  | cons head rest ih =>
    cases c with
    | nil =>
      obtain ⟨rfl, tail⟩ := List.cons.inj same
      have absent := (List.nodup_cons.mp distinct).1
      rw [← keys] at absent
      exact absurd (List.mem_map_of_mem List.mem_append_cons_self) absent
    | cons first others =>
      obtain ⟨rfl, tail⟩ := List.cons.inj same
      obtain ⟨rfl, rest⟩ := ih (List.nodup_cons.mp distinct).2 tail
      exact ⟨rfl, rest⟩

/-! ## The shapes of the inputs -/

section

variable {shapes : SortedMap OpId BuiltShape} {inputs : List OpId}

theorem inputShapes_cons (id : OpId) : inputShapes shapes (id :: inputs) =
    match shapes.get? id with
    | some shape => (inputShapes shapes inputs).map (shape :: ·)
    | none => .error (.missingInput id) := by
  rw [inputShapes, List.mapM_cons]
  cases shapes.get? id <;> rfl

theorem inputShapes_eq_ok {found : List BuiltShape} :
    inputShapes shapes inputs = .ok found ↔ inputs.map shapes.get? = found.map some := by
  induction inputs generalizing found with
  | nil =>
    change Except.ok [] = Except.ok found ↔ [] = found.map some
    rw [Except.ok.injEq, eq_comm, eq_comm (a := []), List.map_eq_nil_iff]
  | cons id rest ih =>
    rw [inputShapes_cons, List.map_cons, eq_comm (a := shapes.get? id :: _),
      List.map_eq_cons_iff]
    cases shapes.get? id with
    | none => simp
    | some shape =>
      constructor
      · intro built
        cases tail : inputShapes shapes rest with
        | error e => rw [tail] at built; cases built
        | ok shapes' =>
          rw [tail] at built
          cases built
          exact ⟨shape, shapes', rfl, rfl, (ih.mp tail).symm⟩
      · rintro ⟨first, shapes', rfl, same, tail⟩
        cases same
        rw [ih.mpr tail.symm]
        rfl

theorem inputShapes_eq_error {e : KernelError} (failed : inputShapes shapes inputs = .error e) :
    ∃ id ∈ inputs, shapes.get? id = none ∧ e = .missingInput id := by
  induction inputs with
  | nil => cases failed
  | cons id rest ih =>
    rw [inputShapes_cons] at failed
    cases here : shapes.get? id with
    | none =>
      rw [here] at failed
      cases failed
      exact ⟨id, List.mem_cons_self, here, rfl⟩
    | some shape =>
      rw [here] at failed
      cases tail : inputShapes shapes rest with
      | ok found => rw [tail] at failed; cases failed
      | error cause =>
        rw [tail] at failed
        cases failed
        obtain ⟨missing, member, none_there⟩ := ih tail
        exact ⟨missing, List.mem_cons_of_mem _ member, none_there⟩

theorem exists_inputShapes : (∃ found, inputShapes shapes inputs = .ok found) ↔
    ∀ id ∈ inputs, shapes.contains id = true := by
  constructor
  · rintro ⟨found, built⟩ id member
    have there : shapes.get? id ∈ found.map some :=
      inputShapes_eq_ok.mp built ▸ List.mem_map_of_mem member
    obtain ⟨shape, _, same⟩ := List.mem_map.mp there
    exact SortedMap.contains_of_get? same.symm
  · intro present
    cases outcome : inputShapes shapes inputs with
    | ok found => exact ⟨found, rfl⟩
    | error e =>
      obtain ⟨id, member, absent, _⟩ := inputShapes_eq_error outcome
      simpa [SortedMap.contains, absent] using present id member

end

/-! ## The results of a plan -/

section

variable {results : List (OpId × Except KernelError BuiltShape)}

theorem gather_concat (shapes : SortedMap OpId BuiltShape)
    (results : List (OpId × Except KernelError BuiltShape))
    (e : OpId × Except KernelError BuiltShape) :
    gather shapes (results ++ [e]) = match e.2 with
      | .ok shape => (gather shapes results).insert e.1 shape
      | .error _ => gather shapes results := by
  rw [gather, List.foldl_append]
  rfl

theorem contains_gather_concat {id d : OpId} {result : Except KernelError BuiltShape} :
    (gather .empty (results ++ [(id, result)])).contains d = true ↔
      (d = id ∧ ∃ shape, result = .ok shape) ∨ (gather .empty results).contains d = true := by
  rw [gather_concat]
  cases result with
  | error e => simp
  | ok shape => simp [SortedMap.contains_insert]

theorem mem_of_contains_gather {d : OpId} (there : (gather .empty results).contains d = true) :
    d ∈ results.map (·.1) := by
  induction results using List.reverseRecOn with
  | nil => cases there
  | append_singleton results e ih =>
    rw [List.map_append, List.mem_append]
    rcases contains_gather_concat.mp there with ⟨same, _⟩ | before
    · exact .inr (List.mem_singleton.mpr same)
    · exact .inl (ih before)

theorem get?_gather (distinct : (results.map (·.1)).Nodup) (id : OpId) :
    (gather .empty results).get? id = RebuildReport.shape? ⟨results⟩ id := by
  induction results using List.reverseRecOn with
  | nil => rfl
  | append_singleton results e ih =>
    rw [List.map_append, List.nodup_append] at distinct
    obtain ⟨distinct, _, apart⟩ := distinct
    have absent : e.1 ∉ results.map (·.1) := fun member => apart _ member _ (by simp) rfl
    have step : (gather .empty (results ++ [e])).get? id =
        if id = e.1 then e.2.toOption.or ((gather .empty results).get? id)
        else (gather .empty results).get? id := by
      rw [gather_concat]
      cases e.2 with
      | error cause => simp [Except.toOption]
      | ok shape => rw [SortedMap.get?_insert]; rfl
    rw [step, ih distinct]
    unfold RebuildReport.shape?
    rw [List.find?_append]
    split
    · next same =>
      subst same
      have notBefore : results.find? (·.1 = e.1) = none := by
        refine List.find?_eq_none.mpr fun other member same => absent ?_
        exact List.mem_map.mpr ⟨other, member, of_decide_eq_true same⟩
      simp [notBefore]
    · next different => simp [Ne.symm different]

end

section

variable (kernel : Kernel σ) (state : σ)

theorem rebuild_concat (plan : List PlannedOp) (op : PlannedOp) :
    (rebuild kernel (plan ++ [op])).run state =
      let before := (rebuild kernel plan).run state
      let built := (buildOne kernel (gather .empty before.1.results) op).run before.2
      (⟨before.1.results ++ [(op.id, built.1)]⟩, built.2) := by
  unfold rebuild
  rw [buildAll_concat]
  rfl

theorem rebuild_ids (plan : List PlannedOp) :
    ((rebuild kernel plan).run state).1.results.map (·.1) = plan.map (·.id) := by
  induction plan using List.reverseRecOn with
  | nil => rfl
  | append_singleton plan op ih =>
    rw [rebuild_concat, List.map_append, List.map_append, ih]
    rfl

theorem rebuild_append (before after : List PlannedOp) (op : PlannedOp) :
    ∃ later, ((rebuild kernel (before ++ op :: after)).run state).1.results =
      ((rebuild kernel before).run state).1.results ++
        (op.id, ((buildOne kernel (gather .empty ((rebuild kernel before).run state).1.results)
          op).run ((rebuild kernel before).run state).2).1) :: later := by
  induction after using List.reverseRecOn with
  | nil => exact ⟨[], by rw [rebuild_concat]⟩
  | append_singleton after last ih =>
    obtain ⟨later, same⟩ := ih
    rw [← List.cons_append, ← List.append_assoc, rebuild_concat]
    dsimp only
    rw [same, List.append_assoc, List.cons_append]
    exact ⟨_, rfl⟩

theorem rebuild_result {plan : List PlannedOp}
    {earlier later : List (OpId × Except KernelError BuiltShape)} {id : OpId}
    {result : Except KernelError BuiltShape}
    (split : ((rebuild kernel plan).run state).1.results = earlier ++ (id, result) :: later) :
    ∃ before op after, plan = before ++ op :: after ∧ op.id = id ∧
      ((rebuild kernel before).run state).1.results = earlier ∧
      result = ((buildOne kernel (gather .empty earlier) op).run
        ((rebuild kernel before).run state).2).1 := by
  induction plan using List.reverseRecOn generalizing later with
  | nil =>
    have none_left : [] = earlier ++ (id, result) :: later := split
    simp at none_left
  | append_singleton plan op ih =>
    rw [rebuild_concat] at split
    rcases List.eq_nil_or_concat later with rfl | ⟨rest, last, rfl⟩
    · obtain ⟨same, tail⟩ := List.append_inj' split rfl
      cases tail
      exact ⟨plan, op, [], rfl, rfl, same, by rw [← same]⟩
    · rw [List.concat_eq_append, ← List.cons_append, ← List.append_assoc] at split
      obtain ⟨before, other, after, rfl, rest⟩ := ih (List.append_inj' split rfl).1
      exact ⟨before, other, after ++ [op], by simp, rest⟩

end

theorem buildOne_missing {shapes : SortedMap OpId BuiltShape} {op : PlannedOp}
    (missing : ¬ ∀ id ∈ op.inputs, shapes.contains id = true) (kernel : Kernel σ) (state : σ) :
    ∃ id ∈ op.inputs, shapes.get? id = none ∧
      (buildOne kernel shapes op).run state = (.error (.missingInput id), state) := by
  unfold buildOne
  cases outcome : inputShapes shapes op.inputs with
  | error e =>
    obtain ⟨id, member, absent, rfl⟩ := inputShapes_eq_error outcome
    exact ⟨id, member, absent, rfl⟩
  | ok inputs => exact absurd (exists_inputShapes.mp ⟨inputs, outcome⟩) missing

theorem buildOne_succeeds {kernel : Kernel σ}
    (succeeds : ∀ op inputs state, ∃ shape, ((kernel.build op inputs).run state).1 = .ok shape)
    (shapes : SortedMap OpId BuiltShape) (op : PlannedOp) (state : σ) :
    (∃ shape, ((buildOne kernel shapes op).run state).1 = .ok shape) ↔
      ∀ id ∈ op.inputs, shapes.contains id = true := by
  constructor
  · rintro ⟨shape, built⟩
    by_contra missing
    obtain ⟨id, _, _, failed⟩ := buildOne_missing missing kernel state
    rw [failed] at built
    cases built
  · intro present
    obtain ⟨inputs, found⟩ := exists_inputShapes.mpr present
    unfold buildOne
    rw [found]
    exact succeeds op inputs state

/-! ## The calls of the kernel -/

/-- A kernel that keeps the calls made to it. -/
def Kernel.recording (kernel : Kernel σ) : Kernel (σ × List (PlannedOp × List BuiltShape)) where
  name := kernel.name
  available := kernel.available
  build op inputs := fun (state, calls) =>
    let (result, state) := (kernel.build op inputs).run state
    (result, state, calls ++ [(op, inputs)])

def kernelCalls (kernel : Kernel σ) (plan : List PlannedOp) (state : σ) :
    List (PlannedOp × List BuiltShape) :=
  ((rebuild kernel.recording plan).run (state, [])).2.2

section

variable (kernel : Kernel σ) (state : σ)

theorem buildOne_recording (shapes : SortedMap OpId BuiltShape) (op : PlannedOp)
    (calls : List (PlannedOp × List BuiltShape)) :
    (buildOne kernel.recording shapes op).run (state, calls) =
      let built := (buildOne kernel shapes op).run state
      (built.1, built.2, calls ++ match inputShapes shapes op.inputs with
        | .ok inputs => [(op, inputs)]
        | .error _ => []) := by
  unfold buildOne
  cases inputShapes shapes op.inputs with
  | error e => simp only [List.append_nil]; rfl
  | ok inputs => rfl

theorem rebuild_recording (plan : List PlannedOp) :
    (rebuild kernel.recording plan).run (state, []) =
      let built := (rebuild kernel plan).run state
      (built.1, built.2, kernelCalls kernel plan state) := by
  induction plan using List.reverseRecOn with
  | nil => rfl
  | append_singleton plan op ih =>
    unfold kernelCalls
    rw [rebuild_concat, ih, rebuild_concat]
    dsimp only
    rw [buildOne_recording]

theorem kernelCalls_concat (plan : List PlannedOp) (op : PlannedOp) :
    kernelCalls kernel (plan ++ [op]) state = kernelCalls kernel plan state ++
      match inputShapes (gather .empty ((rebuild kernel plan).run state).1.results) op.inputs with
      | .ok inputs => [(op, inputs)]
      | .error _ => [] := by
  unfold kernelCalls
  rw [rebuild_concat, rebuild_recording]
  dsimp only
  rw [buildOne_recording]

/-- The kernel is called for the features whose inputs all have shapes, with these shapes. -/
theorem mem_kernelCalls {plan : List PlannedOp} {op : PlannedOp} {inputs : List BuiltShape} :
    (op, inputs) ∈ kernelCalls kernel plan state ↔
      ∃ before after, plan = before ++ op :: after ∧
        inputShapes (gather .empty ((rebuild kernel before).run state).1.results) op.inputs =
          .ok inputs := by
  induction plan using List.reverseRecOn with
  | nil =>
    have no_calls : kernelCalls kernel [] state = [] := rfl
    simp [no_calls]
  | append_singleton plan last ih =>
    rw [kernelCalls_concat, List.mem_append, ih]
    constructor
    · rintro (⟨before, after, rfl, built⟩ | here)
      · exact ⟨before, after ++ [last], by simp, built⟩
      · split at here
        · next found built =>
          cases List.mem_singleton.mp here
          exact ⟨plan, [], rfl, built⟩
        · cases here
    · rintro ⟨before, after, split, built⟩
      rcases List.eq_nil_or_concat after with rfl | ⟨rest, other, rfl⟩
      · obtain ⟨rfl, tail⟩ := List.append_inj' split rfl
        cases tail
        rw [built]
        exact .inr (List.mem_singleton.mpr rfl)
      · rw [List.concat_eq_append, ← List.cons_append, ← List.append_assoc] at split
        exact .inl ⟨before, rest, (List.append_inj' split rfl).1, built⟩

end

end Parametric
