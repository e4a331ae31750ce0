import Parametric.Parameters.Edit
import Parametric.Proofs.Formula.Renaming
import Parametric.Proofs.Parameters.Fixpoint
/-! Renaming a parameter.

Look-ups before the renaming agree with look-ups of the changed names after it.
So the old values solve the equation of the renamed parameters, and that
equation has one solution.
-/

set_option autoImplicit false

namespace Parametric

namespace Parameters

open Parameter Formula

/-- A parameter after `p` is renamed: `p` has the new name, the others have it in their
formulas. -/
def renamedBy (p : Parameter) (fresh : String) (takes : String → Bool) (q : Parameter) :
    Parameter :=
  if q.id = p.id then { q with name := fresh }
  else { q with expression := Formula.rename q.expression p.name fresh takes }

section

variable {p q : Parameter} {fresh : String} {takes : String → Bool}

@[simp] theorem renamedBy_id : (renamedBy p fresh takes q).id = q.id := by
  unfold renamedBy
  split <;> rfl

@[simp] theorem renamedBy_value : (renamedBy p fresh takes q).value = q.value := by
  unfold renamedBy
  split <;> rfl

theorem renamedBy_name :
    (renamedBy p fresh takes q).name = if q.id = p.id then fresh else q.name := by
  unfold renamedBy
  split <;> rfl

theorem distinctIds_renamedBy {list : List Parameter} (ids : DistinctIds list) :
    DistinctIds (list.map (renamedBy p fresh takes)) := by
  unfold DistinctIds
  rw [List.map_map, List.map_congr_left fun q _ => Function.comp_apply.trans renamedBy_id]
  exact ids

theorem renameFirst_eq {list : List Parameter} (ids : DistinctIds list) (p : Parameter)
    (fresh : String) (takes : String → Bool) :
    renameFirst p.id p.name fresh takes list = list.map (renamedBy p fresh takes) := by
  induction list with
  | nil => rfl
  | cons head rest ih =>
    obtain ⟨apart, distinct⟩ := List.nodup_cons.mp ids
    rw [renameFirst, List.map_cons, renamedBy]
    split
    · next same =>
      congr 1
      refine List.map_congr_left fun q member => ?_
      have other : q.id ≠ p.id := fun equal =>
        apart (List.mem_map.mpr ⟨q, member, equal.trans same.symm⟩)
      rw [renamedBy, if_neg other]
      rfl
    · rw [ih distinct]
      rfl

end

/-- A parameter `p` whose name can be changed without harm: the new name is well formed, no
other parameter has it and no formula mentions it, and the old name is found in formulas. -/
structure Renamable (list : List Parameter) (p : Parameter) (fresh : String)
    (takes : String → Bool) : Prop where
  member : p ∈ list
  names : DistinctNames list
  ids : DistinctIds list
  acyclic : (graph list).Acyclic
  oldName : Token.isName p.name = true
  freshName : Token.isName fresh = true
  taken : takes p.name = true
  free : ∀ q ∈ list, q.name = fresh → q = p
  formulas : ∀ q ∈ list, ∃ e, Clean q.expression e ∧ fresh ∉ e.mentions

namespace Renamable

variable {list : List Parameter} {p q r : Parameter} {fresh : String} {takes : String → Bool}

theorem renamed_inj (renamable : Renamable list p fresh takes) (first : q ∈ list)
    (second : r ∈ list)
    (same : renamed p.name fresh q.name = renamed p.name fresh r.name) : q.name = r.name := by
  unfold renamed at same
  split at same
  · next own =>
    split at same
    · next other => exact own.trans other.symm
    · next other => exact absurd (renamable.free r second same.symm ▸ rfl) other
  · next own =>
    split at same
    · next other => exact absurd (renamable.free q first same ▸ rfl) own
    · exact same

theorem name_eq (renamable : Renamable list p fresh takes) (listed : q ∈ list) :
    (renamedBy p fresh takes q).name = renamed p.name fresh q.name := by
  unfold renamedBy renamed
  by_cases own : q.id = p.id
  · obtain rfl := renamable.ids.eq listed renamable.member own
    simp
  · have apart : q.name ≠ p.name := fun same =>
      own (renamable.names.eq listed renamable.member same ▸ rfl)
    rw [if_neg own, if_neg apart]

theorem distinctNames (renamable : Renamable list p fresh takes) :
    DistinctNames (list.map (renamedBy p fresh takes)) := by
  unfold DistinctNames
  rw [List.map_map]
  refine (List.nodup_map_iff_inj_on ?_).mpr fun q first r second same => ?_
  · exact List.Nodup.of_map _ renamable.names
  · rw [Function.comp_apply, Function.comp_apply, renamable.name_eq first,
      renamable.name_eq second] at same
    exact renamable.names.eq first second (renamable.renamed_inj first second same)

theorem parsed (renamable : Renamable list p fresh takes) (listed : q ∈ list) :
    ∃ e, parse q.expression = .ok e ∧ fresh ∉ e.mentions ∧
      parse (renamedBy p fresh takes q).expression = .ok (e.rename (renamed p.name fresh)) := by
  obtain ⟨e, clean, free⟩ := renamable.formulas q listed
  refine ⟨e, clean.parsed, free, ?_⟩
  unfold renamedBy
  by_cases own : q.id = p.id
  · obtain rfl := renamable.ids.eq listed renamable.member own
    have kept : ∀ name ∈ e.mentions, renamed q.name fresh name = name := by
      intro name mentioned
      refine if_neg fun same => ?_
      subst same
      have loop := (edge_iff renamable.names listed).mpr
        ⟨List.mem_map.mpr ⟨q, listed, rfl⟩, e, clean.parsed, mentioned⟩
      exact renamable.acyclic _ (.single loop)
    rw [if_pos rfl, Expr.rename_same kept]
    exact clean.parsed
  · rw [if_neg own]
    exact clean.parse_rename renamable.oldName renamable.freshName renamable.taken

def former (old fresh name : String) : String :=
  if name = fresh then old else name

theorem former_renamed {old name : String} (apart : name = fresh → name = old) :
    former old fresh (renamed old fresh name) = name := by
  unfold former renamed
  by_cases own : name = old
  · simp [own]
  · have other : name ≠ fresh := fun same => own (apart same)
    simp [own, other]

theorem edge (renamable : Renamable list p fresh takes) {node d : String}
    (edge : (graph (list.map (renamedBy p fresh takes))).Edge node d) :
    (graph list).Edge (former p.name fresh node) (former p.name fresh d) := by
  have back : ∀ q ∈ list, former p.name fresh (renamedBy p fresh takes q).name = q.name := by
    intro q listed
    rw [renamable.name_eq listed]
    exact former_renamed fun same => renamable.free q listed same ▸ rfl
  obtain ⟨_, there, rfl⟩ := List.mem_map.mp (contains_graph.mp edge.node_present)
  obtain ⟨q, listed, rfl⟩ := List.mem_map.mp there
  obtain ⟨present, e', parsed', mentioned⟩ := (edge_iff renamable.distinctNames there).mp edge
  obtain ⟨_, other, rfl⟩ := List.mem_map.mp present
  obtain ⟨r, target, rfl⟩ := List.mem_map.mp other
  obtain ⟨e, parsed, free, parsedRenamed⟩ := renamable.parsed listed
  obtain rfl := Except.ok.inj (parsedRenamed.symm.trans parsed')
  rw [Expr.mentions_rename] at mentioned
  obtain ⟨name, inside, same⟩ := List.mem_map.mp mentioned
  have apart : name = fresh → name = p.name := fun equal => absurd (equal ▸ inside) free
  have origin : name = r.name := by rw [← back r target, ← same, former_renamed apart]
  rw [back q listed, back r target, edge_iff renamable.names listed]
  exact ⟨List.mem_map.mpr ⟨r, target, rfl⟩, e, parsed, origin ▸ inside⟩

theorem acyclic_renamed (renamable : Renamable list p fresh takes) :
    (graph (list.map (renamedBy p fresh takes))).Acyclic := by
  intro node back
  exact renamable.acyclic (former p.name fresh node)
    (back.lift (former p.name fresh) fun _ _ => renamable.edge)

end Renamable

def renamedAll (params : Parameters) (p : Parameter) (fresh : String) (takes : String → Bool) :
    Parameters :=
  ⟨params.list.map (renamedBy p fresh takes), params.errors⟩

@[simp] theorem get?_renamedAll (params : Parameters) (p : Parameter) (fresh : String)
    (takes : String → Bool) (id : ParameterId) :
    (renamedAll params p fresh takes).get? id = (params.get? id).map (renamedBy p fresh takes) := by
  rw [get?, renamedAll, List.find?_map, get?]
  simp

theorem of_get? {params : Parameters} {id : ParameterId} {p : Parameter}
    (found : params.get? id = some p) : p ∈ params.list ∧ p.id = id :=
  ⟨List.mem_of_find?_eq_some found, by simpa using List.find?_some found⟩

theorem exists_get? {params : Parameters} {p : Parameter} (member : p ∈ params.list) :
    ∃ q, params.get? p.id = some q :=
  Option.isSome_iff_exists.mp (List.find?_isSome.mpr ⟨p, member, decide_eq_true rfl⟩)

theorem get?_of_mem {params : Parameters} {p : Parameter} (ids : DistinctIds params.list)
    (member : p ∈ params.list) : params.get? p.id = some p := by
  obtain ⟨q, found⟩ := exists_get? member
  obtain ⟨listed, own⟩ := of_get? found
  rw [found, ids.eq listed member own]

theorem lookup_eq {params : Parameters} (names : DistinctNames params.list) (name : String) :
    params.lookup name = (params.named? name).map (·.value) := by
  unfold lookup
  by_cases listed : name ∈ params.list.map (·.name)
  · obtain ⟨q, member, rfl⟩ := List.mem_map.mp listed
    rw [lastNamed?_of_mem names member, named?_of_mem names member]
  · rw [named?_eq_none listed, lastNamed?, List.filter_eq_nil_iff.mpr]
    · rfl
    · intro q member same
      exact listed (List.mem_map.mpr ⟨q, member, of_decide_eq_true same⟩)

theorem rename_of_free {params : Parameters} {p : Parameter} {fresh : String}
    (ids : DistinctIds params.list) (member : p ∈ params.list) (valid : Token.isName fresh = true)
    (free : ∀ q ∈ params.list, q.name = fresh → q.id = p.id) (takes : String → Bool) :
    params.rename p.id fresh takes = .ok (ofList (params.list.map (renamedBy p fresh takes))) := by
  have found : params.get? p.id = some p := get?_of_mem ids member
  have taken : (params.list.any fun q => q.name = fresh && some q.id ≠ some p.id) = false := by
    apply List.any_eq_false.mpr
    intro q listed
    by_cases same : q.name = fresh
    · simp [free q listed same]
    · simp [same]
  have allowed : params.checkName fresh (some p.id) = .ok () := by
    rw [checkName, taken, valid]
    rfl
  rw [rename, found]
  dsimp only
  rw [allowed, renameFirst_eq ids]
  rfl

namespace Renamable

variable {params : Parameters} {p : Parameter} {fresh : String} {takes : String → Bool}

theorem named?_eq (renamable : Renamable params.list p fresh takes) {name : String}
    (apart : name ≠ fresh) : (renamedAll params p fresh takes).named? (renamed p.name fresh name) =
      (params.named? name).map (renamedBy p fresh takes) := by
  by_cases listed : name ∈ params.list.map (·.name)
  · obtain ⟨q, member, rfl⟩ := List.mem_map.mp listed
    have there : renamedBy p fresh takes q ∈ (renamedAll params p fresh takes).list :=
      List.mem_map.mpr ⟨q, member, rfl⟩
    rw [← renamable.name_eq member, named?_of_mem renamable.distinctNames there,
      named?_of_mem renamable.names member]
    rfl
  · have other : name ≠ p.name := fun same =>
      listed (List.mem_map.mpr ⟨p, renamable.member, same.symm⟩)
    have absent : name ∉ (renamedAll params p fresh takes).list.map (·.name) := by
      rw [renamedAll, List.map_map]
      intro present
      obtain ⟨q, member, same⟩ := List.mem_map.mp present
      rw [Function.comp_apply, renamable.name_eq member, renamed] at same
      split at same
      · exact apart same.symm
      · exact listed (List.mem_map.mpr ⟨q, member, same⟩)
    rw [renamed, if_neg other, named?_eq_none absent, named?_eq_none listed]
    rfl

theorem carries (renamable : Renamable params.list p fresh takes) {name : String}
    (apart : name ≠ fresh) :
    Carries (renamed p.name fresh) params.seen (renamedAll params p fresh takes).seen name ∧
    Carries (renamed p.name fresh) params.lookup (renamedAll params p fresh takes).lookup name := by
  have found := renamable.named?_eq apart
  have valued : renamed p.name fresh name = name ∨ (params.named? name).isSome = true := by
    by_cases own : name = p.name
    · rw [own, named?_of_mem renamable.names renamable.member]
      exact .inr rfl
    · exact .inl (if_neg own)
  unfold Carries
  rw [lookup_eq renamable.names, lookup_eq renamable.distinctNames, seen, seen, found,
    Option.map_map, Option.map_map, Option.isSome_map, Option.isSome_map]
  refine ⟨⟨?_, valued⟩, ⟨?_, valued⟩⟩
  · congr 1
    funext q
    rw [Function.comp_apply, renamedBy_id, renamedBy_value]
    rfl
  · congr 1
    funext q
    exact renamedBy_value

theorem evaluate_eq (renamable : Renamable params.list p fresh takes) {q : Parameter}
    (listed : q ∈ params.list) :
    Formula.evaluate (renamedBy p fresh takes q).expression (renamedAll params p fresh takes).seen =
      Formula.evaluate q.expression params.seen := by
  obtain ⟨e, parsed, free, parsedRenamed⟩ := renamable.parsed listed
  refine evaluate_renamed parsed parsedRenamed fun name mentioned => ?_
  exact (renamable.carries fun same => free (same ▸ mentioned)).1

theorem solves (renamable : Renamable params.list p fresh takes)
    (solved : Solves params.list params) :
    Solves (renamedAll params p fresh takes).list (renamedAll params p fresh takes) where
  parameters := by
    have settled : ∀ q' ∈ (renamedAll params p fresh takes).list,
        q'.settled (renamedAll params p fresh takes).seen = q' := by
      intro q' member
      obtain ⟨q, listed, rfl⟩ := List.mem_map.mp member
      rw [settled_eq_self, renamable.evaluate_eq listed, renamedBy_value, ← settled_eq_self]
      exact solved.settled_of_mem listed
    rw [List.map_congr_left settled, List.map_id']
  failures := by
    intro q' member
    obtain ⟨q, listed, rfl⟩ := List.mem_map.mp member
    rw [failure?_congr (renamable.evaluate_eq listed), ← solved.failures q listed, renamedBy_id]
    rfl
  noOthers := by
    intro id absent
    refine solved.noOthers id fun listed => absent ?_
    obtain ⟨q, member, rfl⟩ := List.mem_map.mp listed
    exact List.mem_map.mpr ⟨_, List.mem_map.mpr ⟨q, member, rfl⟩, renamedBy_id⟩

/-- Renaming gives the same parameters, values and failures under the new name. -/
theorem rename_eq (renamable : Renamable params.list p fresh takes)
    (solved : Solves params.list params) :
    params.rename p.id fresh takes = .ok (renamedAll params p fresh takes) := by
  rw [rename_of_free renamable.ids renamable.member renamable.freshName
    (fun q listed same => congrArg (·.id) (renamable.free q listed same)) takes]
  have evaluated := (renamable.solves solved).ofList_eq renamable.distinctNames
    (distinctIds_renamedBy renamable.ids) renamable.acyclic_renamed
  exact congrArg Except.ok evaluated

end Renamable

end Parameters

end Parametric
