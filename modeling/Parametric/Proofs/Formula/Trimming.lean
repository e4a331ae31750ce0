import Parametric.Proofs.Formula.Evaluation
import Parametric.Proofs.Formula.Parsing
import Parametric.Proofs.Formula.Partition
/-! White space around a formula does not count.

A token has no white space in it. So white space behind a text makes none of its tokens longer, and
white space before it only moves them.
-/

set_option autoImplicit false

namespace Parametric

namespace Text

theorem exists_of_trimStart (cs : List Char) :
    ∃ blanks, cs = blanks ++ trimStart cs ∧ ∀ c ∈ blanks, isBlank c = true :=
  ⟨cs.takeWhile isBlank, List.takeWhile_append_dropWhile.symm,
    List.all_eq_true.mp List.all_takeWhile⟩

theorem exists_of_trim (s : String) : ∃ front back, s.toList = front ++ (trim s).toList ++ back ∧
    (∀ c ∈ front, isBlank c = true) ∧ ∀ c ∈ back, isBlank c = true := by
  obtain ⟨front, split, blankFront⟩ := exists_of_trimStart s.toList
  obtain ⟨back, turned, blankBack⟩ := exists_of_trimStart (trimStart s.toList).reverse
  refine ⟨front, back.reverse, ?_, blankFront, fun c member => blankBack c (by simpa using member)⟩
  have whole := congrArg List.reverse turned
  rw [List.reverse_reverse, List.reverse_append] at whole
  rw [trim, String.toList_ofList, List.append_assoc, ← whole]
  exact split

theorem trimStart_eq_self {cs : List Char} (visible : ∀ c ∈ cs, isBlank c = false) :
    trimStart cs = cs := by
  cases cs with
  | nil => rfl
  | cons c rest => rw [trimStart, List.dropWhile_cons_of_neg (by simp [visible c])]

theorem trim_eq_self {s : String} (visible : ∀ c ∈ s.toList, isBlank c = false) : trim s = s := by
  rw [trim, trimStart_eq_self visible, trimStart_eq_self (by simpa using visible),
    List.reverse_reverse, String.ofList_toList]

end Text

namespace Token

variable {cs rest back text : List Char} {kind : TokenKind} {offset : Nat} {tokens : List Token}
  {kinds : List TokenKind}

theorem Lexeme.visible (lexeme : Lexeme text kind) : ∀ c ∈ text, Text.isBlank c = false := by
  intro c member
  obtain ⟨low, high⟩ := lexeme.printable c member
  exact isBlank_of_ascii low high

theorem Lexeme.prefix_of_append (lexeme : Lexeme text kind)
    (blank : ∀ c ∈ back, Text.isBlank c = true) (front : text <+: cs ++ back) : text <+: cs := by
  have whole := List.prefix_append cs back
  rcases List.prefix_or_prefix_of_prefix front whole with within | ⟨tail, rfl⟩
  · exact within
  · have inBack : tail <+: back := (List.prefix_append_right_inj cs).mp front
    cases tail with
    | nil => simp
    | cons c tail =>
      have visible := lexeme.visible c (by simp)
      rw [blank c (inBack.subset List.mem_cons_self)] at visible
      cases visible

theorem Longest.append_blanks (longest : Longest cs text kind)
    (blank : ∀ c ∈ back, Text.isBlank c = true) : Longest (cs ++ back) text kind :=
  ⟨longest.lexeme, longest.front.trans (List.prefix_append cs back),
    fun other otherKind lexeme front =>
      longest.longest other otherKind lexeme (lexeme.prefix_of_append blank front)⟩

theorem splits_blanks (blank : ∀ c ∈ back, Text.isBlank c = true) : Splits offset back [] := by
  induction back generalizing offset with
  | nil => exact .nil
  | cons c back ih =>
    obtain ⟨here, later⟩ := List.forall_mem_cons.mp blank
    exact .blank here (ih later)

theorem Splits.append_blanks (splits : Splits offset cs tokens)
    (blank : ∀ c ∈ back, Text.isBlank c = true) : Splits offset (cs ++ back) tokens := by
  induction splits with
  | nil => exact splits_blanks blank
  | blank here _ ih => exact .blank here ih
  | @token offset text rest kind tokens longest finite _ ih =>
    have kept := longest.append_blanks blank
    rw [List.append_assoc] at kept ⊢
    exact .token kept finite ih

theorem Splits.scans (splits : Splits offset cs tokens) : Scans cs (tokens.map (·.kind)) := by
  induction splits with
  | nil => exact scans_nil
  | blank here _ ih => exact scans_isBlank here ih
  | @token offset text rest kind tokens longest finite _ ih =>
    obtain ⟨c, tail, rfl⟩ := List.exists_cons_of_ne_nil longest.lexeme.ne_nil
    obtain ⟨visible, found⟩ := first_of_longest longest finite
    exact scans_first tail visible found ih

theorem scans_blanks {front : List Char} (blank : ∀ c ∈ front, Text.isBlank c = true)
    (scans : Scans rest kinds) : Scans (front ++ rest) kinds := by
  induction front with
  | nil => exact scans
  | cons c front ih =>
    obtain ⟨here, later⟩ := List.forall_mem_cons.mp blank
    exact scans_isBlank here (ih later)

end Token

namespace Formula

open Token

variable {source : String}

theorem parse_of_trim {e : Expr} (parsed : parse (Text.trim source) = .ok e) :
    parse source = .ok e := by
  obtain ⟨tokens, scanned, derived⟩ := parse_eq_ok.mp parsed
  obtain ⟨front, back, split, blankFront, blankBack⟩ := Text.exists_of_trim source
  have splits := (splits_of_allFrom scanned).append_blanks blankBack
  refine parse_of_scans ?_ derived
  rw [split, List.append_assoc]
  exact scans_blanks blankFront splits.scans

theorem evaluate_of_trim {e : Expr} (parsed : parse (Text.trim source) = .ok e)
    (lookup : String → Option Float) :
    evaluate (Text.trim source) lookup = evaluate source lookup := by
  rw [evaluate, evaluate, parsed, parse_of_trim parsed]

end Formula

end Parametric
