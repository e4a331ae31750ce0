import Parametric.Document
import Parametric.Proofs.Feature.Plan
import Parametric.Proofs.Parameters.Renaming
/-! Renaming a parameter changes no number in a document.

Each dimension stands for the number it stood for, so the plan of a studio is
the same list.
-/

set_option autoImplicit false

namespace Parametric

open Formula Parameters

/-- A formula whose text a renaming can change: it parses, no numeral in it has a point
directly before the mark of its exponent, and it does not mention the new name. -/
def Accepts (fresh source : String) : Prop :=
  ∃ e, Clean source e ∧ fresh ∉ e.mentions

instance (fresh source : String) : Decidable (Accepts fresh source) :=
  match parsed : parse source, scanned : Token.all source with
  | .ok e, .ok tokens =>
    decidable_of_iff ((∀ t ∈ tokens, Plain t) ∧ fresh ∉ e.mentions) <| by
      constructor
      · rintro ⟨plain, free⟩
        exact ⟨e, ⟨parsed, by simpa [scanned] using plain⟩, free⟩
      · rintro ⟨other, clean, free⟩
        obtain rfl := Except.ok.inj (parsed.symm.trans clean.parsed)
        exact ⟨clean.plain tokens scanned, free⟩
  | .error _, _ => isFalse <| by
      rintro ⟨e, clean, _⟩
      rw [clean.parsed] at parsed
      cases parsed
  | .ok e, .error _ => isFalse <| by
      rintro ⟨e, clean, _⟩
      obtain ⟨tokens, found, _⟩ := parse_eq_ok.mp clean.parsed
      rw [found] at scanned
      cases scanned

section

variable {params : Parameters} {p : Parameter} {fresh : String} {takes : String → Bool}

theorem Dimension.resolve_rename (renamable : Renamable params.list p fresh takes) {d : Dimension}
    (accepts : ∀ source ∈ d.expression, Accepts fresh source) :
    (d.rename p.name fresh takes).resolve (renamedAll params p fresh takes) = d.resolve params := by
  have source : (d.rename p.name fresh takes).source? (renamedAll params p fresh takes) =
      (d.source? params).map (renamedBy p fresh takes) := by
    unfold source? rename
    cases d.parameter with
    | none => rfl
    | some id => exact get?_renamedAll params p fresh takes id
  unfold resolve
  rw [source]
  cases d.source? params with
  | some q => exact renamedBy_value
  | none =>
    unfold rename
    cases given : d.expression with
    | none => rfl
    | some source =>
      obtain ⟨e, clean, free⟩ := accepts source given
      have same : Formula.evaluate (Formula.rename source p.name fresh takes)
          (renamedAll params p fresh takes).lookup = Formula.evaluate source params.lookup := by
        have parsed := clean.parse_rename renamable.oldName renamable.freshName renamable.taken
        refine evaluate_renamed clean.parsed parsed fun name mentioned => ?_
        exact (renamable.carries fun same => free (same ▸ mentioned)).2
      simp only [Option.map_none, Option.map_some, same]

namespace Studio

/-- The formulas of the dimensions of all features, hidden and suppressed ones too. -/
def formulas (s : Studio) : List String :=
  s.nodes.values.flatMap fun node => node.op.feature.dimensions.filterMap (·.expression)

theorem effectiveOps_renameParameter (s : Studio) (old fresh : String) (takes : String → Bool) :
    (s.renameParameter old fresh takes).effectiveOps = s.effectiveOps.map fun node =>
      { node with op := node.op.mapDimensions fun _ d => d.rename old fresh takes } := by
  unfold effectiveOps renameParameter effectiveLength
  rw [List.map_filterMap]
  refine List.filterMap_congr fun id _ => ?_
  rw [SortedMap.get?_map]

theorem planNode?_rename (renamable : Renamable params.list p fresh takes) (s : Studio)
    {node : Node}
    (accepts : ∀ d ∈ node.op.feature.dimensions, ∀ source ∈ d.expression, Accepts fresh source) :
    (s.renameParameter p.name fresh takes).planNode? (renamedAll params p fresh takes)
        { node with op := node.op.mapDimensions fun _ d => d.rename p.name fresh takes } =
      s.planNode? params node := by
  have planned : (s.renameParameter p.name fresh takes).planFeature?
      (renamedAll params p fresh takes)
      (node.op.feature.mapDimensions fun _ d => d.rename p.name fresh takes) =
        s.planFeature? params node.op.feature := by
    have resolved : ∀ d ∈ node.op.feature.dimensions,
        (d.rename p.name fresh takes).resolve (renamedAll params p fresh takes) =
          d.resolve params :=
      fun d member => Dimension.resolve_rename renamable (accepts d member)
    cases feature : node.op.feature with
    | sketch id plane => rfl
    | extrude profile direction depth =>
      rw [feature] at resolved
      simp only [planFeature?, Feature.mapDimensions, resolved depth (by simp [Feature.dimensions])]
    | revolve profile choice axis angle =>
      rw [feature] at resolved
      simp only [planFeature?, Feature.mapDimensions, resolved angle (by simp [Feature.dimensions])]
    | fillet target edges radius =>
      rw [feature] at resolved
      simp only [planFeature?, Feature.mapDimensions,
        resolved radius (by simp [Feature.dimensions])]
    | boolean operation target tool => rfl
  unfold planNode? Op.mapDimensions Node.inputs
  rw [planned, Feature.references_mapDimensions]

theorem plan_rename (renamable : Renamable params.list p fresh takes) {s : Studio}
    (accepts : ∀ source ∈ s.formulas, Accepts fresh source) :
    (s.renameParameter p.name fresh takes).plan (renamedAll params p fresh takes) =
      s.plan params := by
  unfold plan
  rw [effectiveOps_renameParameter, List.filter_map, List.filterMap_map]
  refine List.filterMap_congr fun node member => ?_
  have effective := (List.mem_filter.mp member).1
  obtain ⟨id, _, found⟩ := List.mem_filterMap.mp effective
  refine planNode?_rename renamable s fun d dimension source given => accepts source ?_
  have listed : node ∈ s.nodes.values := SortedMap.mem_values.mpr ⟨id, found⟩
  exact List.mem_flatMap.mpr ⟨node, listed, List.mem_filterMap.mpr ⟨d, dimension, given⟩⟩

end Studio

end

namespace Document

variable {d : Document} {p : Parameter} {fresh : String} {takes : String → Bool}

/-- Renaming a parameter succeeds and changes no number: each parameter keeps its identifier,
place, unit, value and recorded failure, and each studio its plan. This needs a pattern engine that
takes the old name: one that refuses it leaves it in the formulas. -/
theorem renameParameter_keeps_numbers {before : Parameters} (evaluated : d.params = before.evaluate)
    (names : DistinctNames d.params.list) (ids : DistinctIds d.params.list)
    (acyclic : (graph d.params.list).Acyclic)
    (valid : ∀ q ∈ d.params.list, Token.isName q.name = true)
    (formulas : ∀ q ∈ d.params.list, Accepts fresh q.expression)
    (dimensions : ∀ s ∈ d.studios, ∀ source ∈ s.formulas, Accepts fresh source)
    (member : p ∈ d.params.list) (freshName : Token.isName fresh = true)
    (taken : takes p.name = true) (free : ∀ q ∈ d.params.list, q.name = fresh → q = p) :
    ∃ next, d.renameParameter p.id fresh takes = .ok next ∧
      List.Forall₂ (fun q r => r.id = q.id ∧ r.unit = q.unit ∧ r.value = q.value ∧
        r.name = (if q = p then fresh else q.name) ∧
        next.params.error? r.id = d.params.error? q.id) d.params.list next.params.list ∧
      next.studios.map (fun s => (s.id, s.plan next.params)) =
        d.studios.map (fun s => (s.id, s.plan d.params)) := by
  have renamable : Renamable d.params.list p fresh takes :=
    ⟨member, names, ids, acyclic, valid p member, freshName, taken, free, formulas⟩
  have fixed : d.params.evaluate = d.params := by
    rw [evaluated] at names ids ⊢
    exact ofList_again (distinctNames_ofList.mp names) (distinctIds_ofList.mp ids)
  have solved : Solves d.params.list d.params := by
    have solves := solves_evaluate names ids acyclic
    rwa [fixed] at solves
  have accepted : d.renameParameter p.id fresh takes = .ok
      { d.mapStudios (·.renameParameter p.name fresh takes) with
        params := renamedAll d.params p fresh takes } := by
    rw [renameParameter, get?_of_mem ids member]
    dsimp only
    rw [renamable.rename_eq solved]
    rfl
  refine ⟨_, accepted, ?_, ?_⟩
  · apply List.forall₂_map_right_iff.mpr
    apply List.forall₂_same.mpr
    intro q listed
    refine ⟨renamedBy_id, ?_, renamedBy_value, ?_, ?_⟩
    · unfold renamedBy
      split <;> rfl
    · unfold renamedBy
      by_cases own : q = p
      · rw [own, if_pos rfl, if_pos rfl]
      · rw [if_neg own, if_neg fun same => own (ids.eq listed member same)]
    · rw [renamedBy_id]
      rfl
  · rw [mapStudios, List.map_map]
    apply List.map_congr_left
    intro s listed
    rw [Function.comp_apply, Studio.plan_rename renamable (dimensions s listed)]
    rfl

def constantNamed : Document :=
  { (Document.new ⟨1⟩).mapStudios fun s =>
      s.addFillet ⟨2⟩ "Fillet 1" ⟨3⟩ [] ⟨1.0, some "PI*max(1, w)", none⟩ with
    params := Parameters.ofList [⟨⟨4⟩, "w", "2.5e1 / PI", 0.0, none⟩,
      ⟨⟨5⟩, "PI", "5", 0.0, some "mm"⟩, ⟨⟨6⟩, "lost", "PI / 0", 7.0, none⟩] }

theorem renameParameter_keeps_numbers_constantNamed :
    let takes (word : String) := decide (word.length ≤ 1000)
    ∃ next, constantNamed.renameParameter ⟨5⟩ "ratio" takes = .ok next ∧
      next.params.list.map (fun q => (q.name, q.expression, q.value)) =
        [("w", "2.5e1 / ratio", 5.0), ("ratio", "5", 5.0), ("lost", "ratio / 0", 7.0)] ∧
      next.studios.map Studio.formulas = [["ratio*max(1, w)"]] ∧
      next.studios.map (fun s => (s.id, s.plan next.params)) =
        constantNamed.studios.map (fun s => (s.id, s.plan constantNamed.params)) := by
  intro takes
  have second : constantNamed.params.list[1]? = some ⟨⟨5⟩, "PI", "5", 5.0, some "mm"⟩ := by
    decide +kernel
  have listed := List.mem_of_getElem? second
  have evaluated : constantNamed.params = constantNamed.params.evaluate := by decide +kernel
  have freshName : Token.isName "ratio" = true := by decide
  have taken : takes "PI" = true := by decide
  obtain ⟨next, accepted, _, plans⟩ := renameParameter_keeps_numbers evaluated
    (by decide +kernel) (by decide +kernel) (by decide +kernel) (by decide +kernel)
    (by decide +kernel) (by decide +kernel) listed freshName taken (by decide +kernel)
  have texts : (constantNamed.renameParameter ⟨5⟩ "ratio" takes).map (fun next =>
      (next.params.list.map (fun q => (q.name, q.expression, q.value)),
        next.studios.map Studio.formulas)) =
      .ok ([("w", "2.5e1 / ratio", 5.0), ("ratio", "5", 5.0), ("lost", "ratio / 0", 7.0)],
        [["ratio*max(1, w)"]]) := by
    decide +kernel
  rw [accepted] at texts
  obtain ⟨parameters, formulas⟩ := Prod.ext_iff.mp (Except.ok.inj texts)
  exact ⟨next, accepted, parameters, formulas, plans⟩

end Document

end Parametric
