import Mathlib.Tactic.Tauto
import Parametric.Document
import Parametric.Proofs.Number.Equality
import Parametric.Proofs.SortedMap
/-! When documents count as equal.

Numbers are compared as numbers, and all else as it is. So two documents count as equal if they
differ in no more than the signs of zeros, and hold no NaN.
-/

set_option autoImplicit false

namespace Parametric

/-- Data compared part by part, its numbers as numbers. -/
class HoldsNumbers (α : Type) [BEq α] where
  hasNaN : α → Bool
  withoutZeroSigns : α → α
  beq_iff {a b : α} : (a == b) = true ↔
    hasNaN a = false ∧ hasNaN b = false ∧ withoutZeroSigns a = withoutZeroSigns b

export HoldsNumbers (hasNaN withoutZeroSigns)

section

variable {α : Type} [BEq α] [HoldsNumbers α] {a b : α}

/-- Data that hold no NaN and differ in no more than the signs of zeros. -/
def Alike (a b : α) : Prop :=
  hasNaN a = false ∧ hasNaN b = false ∧ withoutZeroSigns a = withoutZeroSigns b

instance [DecidableEq α] : Decidable (Alike a b) :=
  inferInstanceAs (Decidable (_ ∧ _))

theorem beq_iff_alike : (a == b) = true ↔ Alike a b :=
  HoldsNumbers.beq_iff

theorem alike_self_iff : Alike a a ↔ hasNaN a = false := by
  simp [Alike]

end

instance : HoldsNumbers Float where
  hasNaN := Float.isNaN
  withoutZeroSigns := withoutZeroSign
  beq_iff := float_beq_iff

instance {κ α : Type} [DecidableEq κ] [BEq α] [HoldsNumbers α] : HoldsNumbers (κ × α) where
  hasNaN e := hasNaN e.2
  withoutZeroSigns e := (e.1, withoutZeroSigns e.2)
  beq_iff {a b} := by
    obtain ⟨key, value⟩ := a
    obtain ⟨key', value'⟩ := b
    change (key == key' && value == value') = true ↔ _
    simp only [Bool.and_eq_true, beq_iff_eq, HoldsNumbers.beq_iff, Prod.mk.injEq]
    tauto

instance {α : Type} [BEq α] [HoldsNumbers α] : HoldsNumbers (List α) where
  hasNaN list := list.any hasNaN
  withoutZeroSigns list := list.map withoutZeroSigns
  beq_iff {a b} := by
    induction a generalizing b with
    | nil => cases b <;> simp
    | cons x rest ih =>
      cases b with
      | nil => simp
      | cons y more =>
        simp only [List.cons_beq_cons, Bool.and_eq_true, HoldsNumbers.beq_iff, ih, List.any_cons,
          Bool.or_eq_false_iff, List.map_cons, List.cons.injEq]
        tauto

instance {κ α : Type} [Ord κ] [DecidableEq κ] [BEq α] [HoldsNumbers α] :
    HoldsNumbers (SortedMap κ α) where
  hasNaN m := hasNaN m.entries
  withoutZeroSigns m := m.map fun _ value => withoutZeroSigns value
  beq_iff {a b} := by
    obtain ⟨entries, rising⟩ := a
    obtain ⟨entries', rising'⟩ := b
    change (entries == entries') = true ↔ _
    rw [HoldsNumbers.beq_iff]
    simp only [SortedMap.map, SortedMap.mk.injEq]
    rfl

instance : HoldsNumbers Vec2 where
  hasNaN v := hasNaN v.x || hasNaN v.y
  withoutZeroSigns v := ⟨withoutZeroSigns v.x, withoutZeroSigns v.y⟩
  beq_iff {a b} := by
    change (a.x == b.x && a.y == b.y) = true ↔ _
    simp only [Bool.and_eq_true, Bool.or_eq_false_iff, HoldsNumbers.beq_iff, Vec2.mk.injEq]
    tauto

instance : HoldsNumbers Vec3 where
  hasNaN v := hasNaN v.x || hasNaN v.y || hasNaN v.z
  withoutZeroSigns v := ⟨withoutZeroSigns v.x, withoutZeroSigns v.y, withoutZeroSigns v.z⟩
  beq_iff {a b} := by
    change (a.x == b.x && (a.y == b.y && a.z == b.z)) = true ↔ _
    simp only [Bool.and_eq_true, Bool.or_eq_false_iff, HoldsNumbers.beq_iff, Vec3.mk.injEq]
    tauto

instance : HoldsNumbers Shape where
  hasNaN
    | .point x y => hasNaN x || hasNaN y
    | .circle _ radius => hasNaN radius
    | .line .. | .arc .. => false
  withoutZeroSigns
    | .point x y => .point (withoutZeroSigns x) (withoutZeroSigns y)
    | .circle center radius => .circle center (withoutZeroSigns radius)
    | .line start finish => .line start finish
    | .arc center start finish clockwise => .arc center start finish clockwise
  beq_iff {a b} := by
    cases a with
    | point x y =>
      cases b with
      | point x' y' =>
        change (x == x' && y == y') = true ↔ _
        simp only [Bool.and_eq_true, Bool.or_eq_false_iff, HoldsNumbers.beq_iff, Shape.point.injEq]
        tauto
      | _ => simp [BEq.beq, instBEqShape.beq]
    | line start finish =>
      cases b with
      | line start' finish' =>
        change (start == start' && finish == finish') = true ↔ _
        simp
      | _ => simp [BEq.beq, instBEqShape.beq]
    | circle center radius =>
      cases b with
      | circle center' radius' =>
        change (center == center' && radius == radius') = true ↔ _
        simp only [Bool.and_eq_true, beq_iff_eq, HoldsNumbers.beq_iff, Shape.circle.injEq]
        tauto
      | _ => simp [BEq.beq, instBEqShape.beq]
    | arc center start finish clockwise =>
      cases b with
      | arc center' start' finish' clockwise' =>
        change (center == center' && (start == start' && (finish == finish' &&
          clockwise == clockwise'))) = true ↔ _
        simp
      | _ => simp [BEq.beq, instBEqShape.beq]

instance : HoldsNumbers Primitive where
  hasNaN p := hasNaN p.shape
  withoutZeroSigns p := { p with shape := withoutZeroSigns p.shape }
  beq_iff {a b} := by
    change (a.shape == b.shape && a.construction == b.construction) = true ↔ _
    simp only [Bool.and_eq_true, beq_iff_eq, HoldsNumbers.beq_iff, Primitive.mk.injEq]
    tauto

instance : HoldsNumbers Sketch where
  hasNaN s := hasNaN s.primitives || hasNaN s.solved
  withoutZeroSigns s :=
    { s with primitives := withoutZeroSigns s.primitives, solved := withoutZeroSigns s.solved }
  beq_iff {a b} := by
    change (a.id == b.id && (a.name == b.name && (a.plane == b.plane &&
      (a.primitives == b.primitives && a.solved == b.solved)))) = true ↔ _
    simp only [Bool.and_eq_true, Bool.or_eq_false_iff, beq_iff_eq, HoldsNumbers.beq_iff,
      Sketch.mk.injEq]
    tauto

instance : HoldsNumbers Plane where
  hasNaN p := hasNaN p.origin || hasNaN p.normal || hasNaN p.xAxis || hasNaN p.yAxis
  withoutZeroSigns p :=
    { p with
      origin := withoutZeroSigns p.origin
      normal := withoutZeroSigns p.normal
      xAxis := withoutZeroSigns p.xAxis
      yAxis := withoutZeroSigns p.yAxis }
  beq_iff {a b} := by
    change (a.id == b.id && (a.name == b.name && (a.origin == b.origin && (a.normal == b.normal &&
      (a.xAxis == b.xAxis && a.yAxis == b.yAxis))))) = true ↔ _
    simp only [Bool.and_eq_true, Bool.or_eq_false_iff, beq_iff_eq, HoldsNumbers.beq_iff,
      Plane.mk.injEq]
    tauto

instance : HoldsNumbers Axis where
  hasNaN a := hasNaN a.origin || hasNaN a.direction
  withoutZeroSigns a := ⟨withoutZeroSigns a.origin, withoutZeroSigns a.direction⟩
  beq_iff {a b} := by
    change (a.origin == b.origin && a.direction == b.direction) = true ↔ _
    simp only [Bool.and_eq_true, Bool.or_eq_false_iff, HoldsNumbers.beq_iff, Axis.mk.injEq]
    tauto

instance : HoldsNumbers Dimension where
  hasNaN d := hasNaN d.value
  withoutZeroSigns d := { d with value := withoutZeroSigns d.value }
  beq_iff {a b} := by
    change (a.value == b.value && (a.expression == b.expression && a.parameter == b.parameter)) =
      true ↔ _
    simp only [Bool.and_eq_true, beq_iff_eq, HoldsNumbers.beq_iff, Dimension.mk.injEq]
    tauto

instance : HoldsNumbers Feature where
  hasNaN
    | .extrude _ _ depth => hasNaN depth
    | .revolve _ _ axis angle => hasNaN axis || hasNaN angle
    | .fillet _ _ radius => hasNaN radius
    | .sketch .. | .boolean .. => false
  withoutZeroSigns
    | .extrude profile direction depth => .extrude profile direction (withoutZeroSigns depth)
    | .revolve profile choice axis angle =>
      .revolve profile choice (withoutZeroSigns axis) (withoutZeroSigns angle)
    | .fillet target edges radius => .fillet target edges (withoutZeroSigns radius)
    | .sketch sketch plane => .sketch sketch plane
    | .boolean operation target tool => .boolean operation target tool
  beq_iff {a b} := by
    cases a with
    | sketch sketch plane =>
      cases b with
      | sketch sketch' plane' =>
        change (sketch == sketch' && plane == plane') = true ↔ _
        simp
      | _ => simp [BEq.beq, instBEqFeature.beq]
    | extrude profile direction depth =>
      cases b with
      | extrude profile' direction' depth' =>
        change (profile == profile' && (direction == direction' && depth == depth')) = true ↔ _
        simp only [Bool.and_eq_true, beq_iff_eq, HoldsNumbers.beq_iff, Feature.extrude.injEq]
        tauto
      | _ => simp [BEq.beq, instBEqFeature.beq]
    | revolve profile choice axis angle =>
      cases b with
      | revolve profile' choice' axis' angle' =>
        change (profile == profile' && (choice == choice' && (axis == axis' &&
          angle == angle'))) = true ↔ _
        simp only [Bool.and_eq_true, Bool.or_eq_false_iff, beq_iff_eq, HoldsNumbers.beq_iff,
          Feature.revolve.injEq]
        tauto
      | _ => simp [BEq.beq, instBEqFeature.beq]
    | fillet target edges radius =>
      cases b with
      | fillet target' edges' radius' =>
        change (target == target' && (edges == edges' && radius == radius')) = true ↔ _
        simp only [Bool.and_eq_true, beq_iff_eq, HoldsNumbers.beq_iff, Feature.fillet.injEq]
        tauto
      | _ => simp [BEq.beq, instBEqFeature.beq]
    | boolean operation target tool =>
      cases b with
      | boolean operation' target' tool' =>
        change (operation == operation' && (target == target' && tool == tool')) = true ↔ _
        simp
      | _ => simp [BEq.beq, instBEqFeature.beq]

instance : HoldsNumbers Node where
  hasNaN n := hasNaN n.op.feature
  withoutZeroSigns n := { n with op := { n.op with feature := withoutZeroSigns n.op.feature } }
  beq_iff {a b} := by
    change ((a.op.id == b.op.id && (a.op.name == b.op.name && (a.op.feature == b.op.feature &&
      a.op.suppressed == b.op.suppressed))) && a.dependencies == b.dependencies) = true ↔ _
    simp only [Bool.and_eq_true, beq_iff_eq, HoldsNumbers.beq_iff, Node.mk.injEq, Op.mk.injEq]
    tauto

instance : HoldsNumbers Studio where
  hasNaN s := hasNaN s.nodes || hasNaN s.sketches || hasNaN s.planes
  withoutZeroSigns s :=
    { s with
      nodes := withoutZeroSigns s.nodes
      sketches := withoutZeroSigns s.sketches
      planes := withoutZeroSigns s.planes }
  beq_iff {a b} := by
    change (a.id == b.id && (a.name == b.name && (a.nodes == b.nodes && (a.order == b.order &&
      (a.sketches == b.sketches && (a.planes == b.planes && (a.cutoff == b.cutoff &&
        a.modified == b.modified))))))) = true ↔ _
    simp only [Bool.and_eq_true, Bool.or_eq_false_iff, beq_iff_eq, HoldsNumbers.beq_iff,
      Studio.mk.injEq]
    tauto

instance : HoldsNumbers Parameter where
  hasNaN p := hasNaN p.value
  withoutZeroSigns p := { p with value := withoutZeroSigns p.value }
  beq_iff {a b} := by
    change (a.id == b.id && (a.name == b.name && (a.expression == b.expression &&
      (a.value == b.value && a.unit == b.unit)))) = true ↔ _
    simp only [Bool.and_eq_true, beq_iff_eq, HoldsNumbers.beq_iff, Parameter.mk.injEq]
    tauto

/-- A number that a recorded failure names counts as it is, a NaN too. -/
instance : HoldsNumbers Parameters where
  hasNaN params := hasNaN params.list
  withoutZeroSigns params := { params with list := withoutZeroSigns params.list }
  beq_iff {a b} := by
    change (a.list == b.list && a.errors == b.errors) = true ↔ _
    simp only [Bool.and_eq_true, beq_iff_eq, HoldsNumbers.beq_iff, Parameters.mk.injEq]
    tauto

instance : HoldsNumbers Document where
  hasNaN d := hasNaN d.studios || hasNaN d.params
  withoutZeroSigns d := { d.mapStudios withoutZeroSigns with params := withoutZeroSigns d.params }
  beq_iff {a b} := by
    change (a.studios == b.studios && a.params == b.params) = true ↔ _
    simp only [Bool.and_eq_true, Bool.or_eq_false_iff, HoldsNumbers.beq_iff, Document.mapStudios,
      Document.mk.injEq]
    exact ⟨fun h => ⟨⟨h.1.1, h.2.1⟩, ⟨h.1.2.1, h.2.2.1⟩, h.1.2.2, h.2.2.2⟩,
      fun h => ⟨⟨h.1.1, h.2.1.1, h.2.2.1⟩, h.1.2, h.2.1.2, h.2.2.2⟩⟩

end Parametric
