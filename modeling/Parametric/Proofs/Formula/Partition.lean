import Parametric.Proofs.Formula.Lexeme
/-! The scanner cuts a text into tokens and the white space between them.

A token is the longest at its place, so nothing that is cut off behind it changes
it. That is why a token is scanned alone as it is in the text, and why the text
before a failure is scanned without one.
-/

set_option autoImplicit false

namespace Parametric.Token

variable {cs text rest : List Char} {kind : TokenKind} {c : Char} {offset : Nat}
  {tokens : List Token}

/-! ## Bytes -/

def byteCount (cs : List Char) : Nat :=
  (String.ofList cs).utf8ByteSize

@[simp] theorem byteCount_nil : byteCount [] = 0 := rfl

@[simp] theorem byteCount_append (ls rs : List Char) :
    byteCount (ls ++ rs) = byteCount ls + byteCount rs := by
  rw [byteCount, String.ofList_append, String.utf8ByteSize_append]
  rfl

@[simp] theorem byteCount_cons (c : Char) (cs : List Char) :
    byteCount (c :: cs) = c.utf8Size + byteCount cs := by
  rw [byteCount, String.ofList_cons, String.utf8ByteSize_append, String.utf8ByteSize_singleton]
  rfl

theorem byteCount_toList (s : String) : byteCount s.toList = s.utf8ByteSize := by
  rw [byteCount, String.ofList_toList]

theorem Lexeme.byteCount_eq (lexeme : Lexeme text kind) : byteCount text = text.length := by
  have ascii := lexeme.printable
  clear lexeme
  induction text with
  | nil => rfl
  | cons c text ih =>
    obtain ⟨here, later⟩ := List.forall_mem_cons.mp ascii
    have one : c.utf8Size = 1 := by
      have small : c.toNat ≤ 127 := le_trans here.2 (by decide)
      exact Char.utf8Size_eq_one_iff.mpr (UInt32.le_iff_toNat_le.mpr small)
    rw [byteCount_cons, one, ih later, List.length_cons, Nat.add_comm]

/-! ## Texts cut into tokens -/

/-- A text that starts at an offset, cut into tokens and white space. -/
inductive Splits : Nat → List Char → List Token → Prop where
  | nil {offset : Nat} : Splits offset [] []
  | blank {offset : Nat} {c : Char} {rest : List Char} {tokens : List Token}
      (blank : Text.isBlank c = true) (later : Splits (offset + c.utf8Size) rest tokens) :
      Splits offset (c :: rest) tokens
  | token {offset : Nat} {text rest : List Char} {kind : TokenKind} {tokens : List Token}
      (longest : Longest (text ++ rest) text kind)
      (finite : ∀ value, kind = .number value → value.isFinite = true)
      (later : Splits (offset + byteCount text) rest tokens) :
      Splits offset (text ++ rest) (⟨kind, offset, String.ofList text⟩ :: tokens)

theorem Splits.allFrom_eq (splits : Splits offset cs tokens) : allFrom offset cs = .ok tokens := by
  induction splits with
  | nil => rw [allFrom]
  | blank blank _ ih => rw [allFrom, if_pos blank, ih]
  | @token offset text rest kind tokens longest finite _ ih =>
    rw [longest.lexeme.byteCount_eq] at ih
    obtain ⟨c, tail, rfl⟩ := List.exists_cons_of_ne_nil longest.lexeme.ne_nil
    obtain ⟨visible, found⟩ := first_of_longest longest finite
    have left : (tail ++ rest).drop ((c :: tail).length - 1) = rest := by simp
    rw [List.cons_append, allFrom, if_neg (by simp [visible])]
    rw [List.append_eq] at found
    rw [found]
    dsimp only
    rw [left, ih]
    rfl

theorem Longest.append_drop (longest : Longest (c :: rest) text kind) :
    text ++ rest.drop (text.length - 1) = c :: rest := by
  obtain ⟨d, tail, rfl⟩ := List.exists_cons_of_ne_nil longest.lexeme.ne_nil
  obtain ⟨rfl, after, rfl⟩ := List.cons_prefix_cons.mp longest.front
  simp

theorem splits_of_allFrom (scanned : allFrom offset cs = .ok tokens) :
    Splits offset cs tokens := by
  induction offset, cs using allFrom.induct generalizing tokens with
  | case1 offset =>
    rw [allFrom] at scanned
    cases scanned
    exact .nil
  | case2 offset c rest blank ih =>
    rw [allFrom, if_pos blank] at scanned
    exact .blank blank (ih scanned)
  | case3 offset c rest visible fault found =>
    rw [allFrom, if_neg visible, found] at scanned
    cases scanned
  | case4 offset c rest visible kind text found ih =>
    rw [allFrom, if_neg visible, found] at scanned
    obtain ⟨others, later, rfl⟩ := ok_of_map scanned
    cases front_of_first visible found with
    | token longest finite =>
      have splits : Splits (offset + byteCount text) (rest.drop (text.length - 1)) others := by
        rw [longest.lexeme.byteCount_eq]
        exact ih later
      have whole := longest.append_drop
      rw [← whole] at longest ⊢
      exact .token longest finite splits

/-- A failure stands behind a text that is cut into tokens, and is due to what follows it. -/
theorem splits_of_error {e : SyntaxError} (failed : allFrom offset cs = .error e) :
    ∃ before after tokens, cs = before ++ after ∧ e.offset = offset + byteCount before ∧
      Splits offset before tokens ∧ Front after (.error e.fault) := by
  induction offset, cs using allFrom.induct with
  | case1 offset =>
    rw [allFrom] at failed
    cases failed
  | case2 offset c rest blank ih =>
    rw [allFrom, if_pos blank] at failed
    obtain ⟨before, after, tokens, rfl, place, splits, front⟩ := ih failed
    refine ⟨c :: before, after, tokens, rfl, ?_, .blank blank splits, front⟩
    rw [place, byteCount_cons, Nat.add_assoc]
  | case3 offset c rest visible fault found =>
    rw [allFrom, if_neg visible, found] at failed
    cases failed
    exact ⟨[], c :: rest, [], rfl, rfl, .nil, front_of_first visible found⟩
  | case4 offset c rest visible kind text found ih =>
    rw [allFrom, if_neg visible, found] at failed
    dsimp only at failed
    cases later : allFrom (offset + text.length) (rest.drop (text.length - 1)) with
    | ok others =>
      rw [later] at failed
      cases failed
    | error reason =>
      rw [later] at failed
      cases failed
      cases front_of_first visible found with
      | token longest finite =>
        obtain ⟨before, after, tokens, split, place, splits, front⟩ := ih later
        have whole : c :: rest = text ++ before ++ after := by
          rw [← longest.append_drop, split, List.append_assoc]
        rw [← longest.lexeme.byteCount_eq] at splits place
        -- Without what fails, the token is still the longest at its place.
        have kept : Longest (text ++ before) text kind :=
          longest.truncate (List.prefix_append _ _) ⟨after, whole.symm⟩
        refine ⟨text ++ before, after, _, whole, ?_, .token kept finite splits, front⟩
        rw [place, byteCount_append, Nat.add_assoc]

/-! ## What a cut text consists of -/

theorem Splits.standing (splits : Splits offset cs tokens) : ∀ t ∈ tokens,
    ∃ before after, cs = before ++ t.text.toList ++ after ∧ t.offset = offset + byteCount before ∧
      Longest (t.text.toList ++ after) t.text.toList t.kind ∧
      ∀ value, t.kind = .number value → value.isFinite = true := by
  induction splits with
  | nil => exact List.forall_mem_nil _
  | @blank offset c rest tokens _ _ ih =>
    intro t member
    obtain ⟨before, after, rfl, place, longest, finite⟩ := ih t member
    refine ⟨c :: before, after, rfl, ?_, longest, finite⟩
    rw [place, byteCount_cons, Nat.add_assoc]
  | @token offset text rest kind tokens longest finite _ ih =>
    refine List.forall_mem_cons.mpr ⟨⟨[], rest, ?_, rfl, ?_, finite⟩, fun t member => ?_⟩
    · rw [String.toList_ofList, List.nil_append]
    · rwa [String.toList_ofList]
    · obtain ⟨before, after, rfl, place, later⟩ := ih t member
      refine ⟨text ++ before, after, by simp only [List.append_assoc], ?_, later⟩
      rw [place, byteCount_append, Nat.add_assoc]

theorem Splits.apart (splits : Splits offset cs tokens) :
    tokens.Pairwise fun t u => t.offset + t.text.utf8ByteSize ≤ u.offset := by
  induction splits with
  | nil => exact .nil
  | blank _ _ ih => exact ih
  | token _ _ later ih =>
    refine List.pairwise_cons.mpr ⟨fun u member => ?_, ih⟩
    obtain ⟨before, after, -, place, -⟩ := later.standing u member
    rw [place]
    exact Nat.le_add_right _ _

theorem Splits.gaps (splits : Splits offset cs tokens) {before after : List Char} {c : Char}
    (split : cs = before ++ c :: after) : Text.isBlank c = true ∨
      ∃ t ∈ tokens, t.offset ≤ offset + byteCount before ∧
        offset + byteCount before < t.offset + t.text.utf8ByteSize := by
  induction splits generalizing before with
  | nil => simp at split
  | @blank offset d rest tokens blank _ ih =>
    cases before with
    | nil =>
      obtain ⟨rfl, -⟩ := List.cons.inj split
      exact .inl blank
    | cons b before =>
      obtain ⟨rfl, behind⟩ := List.cons.inj split
      rw [byteCount_cons, ← Nat.add_assoc]
      exact ih behind
  | @token offset text rest kind tokens longest _ _ ih =>
    -- The character stands behind the first token or inside it.
    have behind : ∀ gap, before = text ++ gap → rest = gap ++ c :: after →
        Text.isBlank c = true ∨ ∃ t ∈ ⟨kind, offset, String.ofList text⟩ :: tokens,
          t.offset ≤ offset + byteCount before ∧
            offset + byteCount before < t.offset + t.text.utf8ByteSize := by
      rintro gap rfl there
      rw [byteCount_append, ← Nat.add_assoc]
      rcases ih there with blank | ⟨t, member, covers⟩
      · exact .inl blank
      · exact .inr ⟨t, List.mem_cons_of_mem _ member, covers⟩
    rcases List.append_eq_append_iff.mp split with ⟨gap, same, there⟩ | ⟨inside, same, there⟩
    · exact behind gap same there
    · cases inside with
      | nil => exact behind [] (by simpa using same.symm) there.symm
      | cons d inside =>
        obtain ⟨rfl, -⟩ := List.cons.inj there
        refine .inr ⟨_, List.mem_cons_self, Nat.le_add_right _ _, ?_⟩
        have size : (String.ofList text).utf8ByteSize = byteCount text := rfl
        have long := c.utf8Size_pos
        dsimp only
        rw [size, same, byteCount_append, byteCount_cons]
        omega

/-! ## The tokens of a text -/

/-- Tokens lie on a text one behind the other, with white space between them. -/
structure Partition (source : String) (tokens : List Token) : Prop where
  /-- A token covers whole characters from its offset on, and is the longest there. -/
  standing : ∀ t ∈ tokens, ∃ before after : String, source = before ++ t.text ++ after ∧
    t.offset = before.utf8ByteSize ∧ t.text ≠ "" ∧
    Longest (t.text ++ after).toList t.text.toList t.kind
  /-- A token ends before the next one starts. -/
  apart : tokens.Pairwise fun t u => t.offset + t.text.utf8ByteSize ≤ u.offset
  /-- A character that no token covers is white space. -/
  gaps : ∀ (before after : String) (c : Char), source = before ++ String.singleton c ++ after →
    Text.isBlank c = true ∨ ∃ t ∈ tokens, t.offset ≤ before.utf8ByteSize ∧
      before.utf8ByteSize < t.offset + t.text.utf8ByteSize
  alone : ∀ t ∈ tokens, all t.text = .ok [⟨t.kind, 0, t.text⟩]

theorem splits_lexeme (lexeme : Lexeme text kind)
    (finite : ∀ value, kind = .number value → value.isFinite = true) :
    Splits offset text [⟨kind, offset, String.ofList text⟩] := by
  have longest : Longest (text ++ []) text kind :=
    ⟨lexeme, List.prefix_append _ _, fun _ _ _ front => by simpa using front.length_le⟩
  have splits : Splits offset (text ++ []) _ := .token longest finite .nil
  rwa [List.append_nil] at splits

theorem all_alone {word : String} (lexeme : Lexeme word.toList kind)
    (finite : ∀ value, kind = .number value → value.isFinite = true) :
    all word = .ok [⟨kind, 0, word⟩] := by
  have splits : Splits 0 word.toList _ := splits_lexeme lexeme finite
  rw [String.ofList_toList] at splits
  exact splits.allFrom_eq

theorem Splits.partition {source : String} (splits : Splits 0 source.toList tokens) :
    Partition source tokens where
  standing t member := by
    obtain ⟨before, after, split, place, longest, -⟩ := splits.standing t member
    refine ⟨String.ofList before, String.ofList after, ?_, ?_, ?_, ?_⟩
    · rw [← String.toList_inj, split]
      simp only [String.toList_append, String.toList_ofList]
    · rw [place, Nat.zero_add]
      rfl
    · rintro empty
      exact longest.lexeme.ne_nil (by rw [empty]; rfl)
    · rwa [String.toList_append, String.toList_ofList]
  apart := splits.apart
  gaps before after c split := by
    have place : source.toList = before.toList ++ c :: after.toList := by
      simp [split]
    have covered := splits.gaps place
    rwa [byteCount_toList, Nat.zero_add] at covered
  alone t member := by
    obtain ⟨before, after, -, -, longest, finite⟩ := splits.standing t member
    exact all_alone longest.lexeme finite

/-- A failure of the scanner: the text before it is scanned without one, and what stands there is
a numeral without finite value, or a character that starts no token. -/
def FailsAt (source : String) (e : SyntaxError) : Prop :=
  ∃ before after : String, source = before ++ after ∧ e.offset = before.utf8ByteSize ∧
    e.offset < source.utf8ByteSize ∧ (∃ tokens, all before = .ok tokens) ∧
    Front after.toList (.error e.fault)

theorem failsAt_of_all {source : String} {e : SyntaxError} (failed : all source = .error e) :
    FailsAt source e := by
  obtain ⟨before, after, tokens, split, place, splits, front⟩ := splits_of_error failed
  rw [Nat.zero_add] at place
  refine ⟨String.ofList before, String.ofList after, ?_, place, ?_, ⟨tokens, ?_⟩, ?_⟩
  · rw [← String.ofList_append, ← split, String.ofList_toList]
  · obtain ⟨c, rest, rfl⟩ := List.exists_cons_of_ne_nil front.ne_nil
    have long := c.utf8Size_pos
    rw [place, ← byteCount_toList source, split, byteCount_append, byteCount_cons]
    omega
  · rw [all, String.toList_ofList]
    exact splits.allFrom_eq
  · rwa [String.toList_ofList]

/-- A text that is scanned consists of its tokens and white space, and one that is not is scanned up
to the failure. A name is a text that is scanned as itself. -/
theorem all_partitions (source : String) :
    (∀ tokens, all source = .ok tokens → Partition source tokens) ∧
    (∀ e, all source = .error e → FailsAt source e) ∧
    (isName source = true ↔ all source = .ok [⟨.name source, 0, source⟩]) := by
  refine ⟨fun tokens scanned => (splits_of_allFrom scanned).partition,
    fun e failed => failsAt_of_all failed, fun word => ?_, fun scanned => ?_⟩
  · exact all_alone (.name word) nofun
  · exact allFrom_lexical scanned _ List.mem_cons_self

theorem all_partitions_dangling :
    (∃ tokens, all "2e+ x_1" = .ok tokens ∧ tokens.map (·.offset) = [0, 1, 2, 4] ∧
      Partition "2e+ x_1" tokens) ∧
    FailsAt "2 × 3" ⟨.unexpectedCharacter '×', 2⟩ ∧
    FailsAt "2 * 1e999" ⟨.numberOutOfRange "1e999", 4⟩ := by
  have scanned : all "2e+ x_1" = .ok [⟨.number 2.0, 0, "2"⟩, ⟨.name "e", 1, "e"⟩,
      ⟨.symbol .plus, 2, "+"⟩, ⟨.name "x_1", 4, "x_1"⟩] := by
    decide +kernel
  have strange : all "2 × 3" = .error ⟨.unexpectedCharacter '×', 2⟩ := by
    decide +kernel
  have infinite : all "2 * 1e999" = .error ⟨.numberOutOfRange "1e999", 4⟩ := by
    decide +kernel
  exact ⟨⟨_, scanned, rfl, (all_partitions _).1 _ scanned⟩, (all_partitions _).2.1 _ strange,
    (all_partitions _).2.1 _ infinite⟩

end Parametric.Token
