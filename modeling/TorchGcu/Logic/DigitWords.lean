import Mathlib.Data.List.Basic

/-! Words of one digit, or of two of which the first may lead, written one after another with
nothing between. A list of words is known from its digits and its length unless digits can be
grouped in another way. -/
namespace ProgramLogic.DigitWords

inductive Word {δ : Type} (leads : δ → Prop) where
  | one (digit : δ)
  | two (first second : δ) (leading : leads first)

variable {δ : Type} {leads : δ → Prop}

def Word.digits : Word leads → List δ
  | one digit => [digit]
  | two first second _ => [first, second]

def Word.isOne : Word leads → Bool
  | one _ => true
  | two _ _ _ => false

def digits (words : List (Word leads)) : List δ := words.flatMap Word.digits

/-- A word of one digit cannot be grouped with its neighbours: its digit does not lead unless it is
the last, and neither does the digit before it. -/
def Isolated : Option δ → List (Word leads) → Prop
  | _, [] => True
  | _, .two _ second _ :: rest => Isolated (some second) rest
  | before, .one digit :: rest =>
    (rest = [] ∨ ¬ leads digit) ∧ (∀ d ∈ before, ¬ leads d) ∧ Isolated (some digit) rest

variable {words others : List (Word leads)} {before : Option δ}

@[simp] theorem digits_nil : digits ([] : List (Word leads)) = [] := rfl

@[simp] theorem digits_one (digit : δ) :
    digits (.one digit :: words : List (Word leads)) = digit :: digits words := rfl

@[simp] theorem digits_two (first second : δ) (leading : leads first) :
    digits (.two first second leading :: words) = first :: second :: digits words := rfl

theorem digits_append : digits (words ++ others) = digits words ++ digits others :=
  List.flatMap_append

/-! ### Isolated words have no other grouping -/

/-- Other words for the same digits are not fewer, nor are they with one digit before them. -/
theorem Isolated.length_le (isolated : Isolated before words) :
    (∀ others : List (Word leads), digits others = digits words →
      words.length ≤ others.length) ∧
    ∀ (digit : δ) (others : List (Word leads)), before = some digit →
      digits others = digit :: digits words → words.length + 1 ≤ others.length := by
  induction words generalizing before with
  | nil =>
    refine ⟨fun _ _ => Nat.zero_le _, fun digit others _ same => ?_⟩
    cases others with
    | nil => cases same
    | cons word rest => simp
  | cons word rest ih =>
    cases word with
    | one s =>
      obtain ⟨last, alone, isolatedRest⟩ := isolated
      obtain ⟨fewer, -⟩ := ih isolatedRest
      have plain (others : List (Word leads)) (same : digits others = s :: digits rest) :
          rest.length + 1 ≤ others.length := by
        cases others with
        | nil => cases same
        | cons word more =>
          cases word with
          | one t =>
            have enough := fewer more (List.cons.inj same).2
            simp only [List.length_cons]
            omega
          | two x y leading =>
            have head := (List.cons.inj same).1
            rcases last with rfl | not
            · simp at same
            · exact absurd (head ▸ leading) not
      refine ⟨plain, fun digit others here same => ?_⟩
      cases others with
      | nil => cases same
      | cons word more =>
        cases word with
        | one t =>
          have enough := plain more (List.cons.inj same).2
          simp only [List.length_cons]
          omega
        | two x y leading =>
          have head := (List.cons.inj same).1
          exact absurd (head ▸ leading) (alone digit here)
    | two x y leading =>
      obtain ⟨fewer, more⟩ := ih isolated
      have plain (others : List (Word leads)) (same : digits others = x :: y :: digits rest) :
          rest.length + 1 ≤ others.length := by
        cases others with
        | nil => cases same
        | cons word tail =>
          cases word with
          | one t =>
            have enough := more y tail rfl (List.cons.inj same).2
            simp only [List.length_cons]
            omega
          | two t u _ =>
            have enough := fewer tail (List.cons.inj (List.cons.inj same).2).2
            simp only [List.length_cons]
            omega
      refine ⟨plain, fun digit others here same => ?_⟩
      cases others with
      | nil => cases same
      | cons word tail =>
        cases word with
        | one t =>
          have enough := plain tail (List.cons.inj same).2
          simp only [List.length_cons]
          omega
        | two t u _ =>
          have enough := more y tail rfl (List.cons.inj (List.cons.inj same).2).2
          simp only [List.length_cons]
          omega

theorem Isolated.unique (isolated : Isolated before words)
    (same : digits others = digits words) (each : others.length = words.length) :
    others = words := by
  induction words generalizing before others with
  | nil => exact List.length_eq_zero_iff.mp each
  | cons word rest ih =>
    cases others with
    | nil => cases each
    | cons other tail =>
      have eachRest : tail.length = rest.length := Nat.succ.inj each
      cases word with
      | one s =>
        obtain ⟨last, -, isolatedRest⟩ := isolated
        cases other with
        | one t =>
          obtain ⟨rfl, sameRest⟩ := List.cons.inj same
          rw [ih isolatedRest sameRest eachRest]
        | two x y leading =>
          rcases last with rfl | not
          · simp at same
          · exact absurd ((List.cons.inj same).1 ▸ leading) not
      | two x y leading =>
        cases other with
        | one t =>
          have isolatedRest : Isolated (some y) rest := isolated
          have enough := isolatedRest.length_le.2 y tail rfl (List.cons.inj same).2
          omega
        | two t u _ =>
          obtain ⟨rfl, sameTail⟩ := List.cons.inj same
          obtain ⟨rfl, sameRest⟩ := List.cons.inj sameTail
          rw [ih isolated sameRest eachRest]

theorem length_le_digits (words : List (Word leads)) : words.length ≤ (digits words).length := by
  induction words with
  | nil => exact Nat.le_refl _
  | cons word rest ih =>
    cases word <;> simp only [digits_one, digits_two, List.length_cons] <;> omega

/-- Words of one digit each have no other grouping into as many words. -/
theorem ones_unique (ones : ∀ word ∈ words, word.isOne = true)
    (same : digits others = digits words) (each : others.length = words.length) :
    others = words := by
  induction words generalizing others with
  | nil => exact List.length_eq_zero_iff.mp each
  | cons word rest ih =>
    rw [List.forall_mem_cons] at ones
    have short : (digits rest).length = rest.length := by
      clear ih same each
      have all := ones.2
      induction rest with
      | nil => rfl
      | cons word rest ihRest =>
        rw [List.forall_mem_cons] at all
        cases word with
        | one s =>
          rw [digits_one, List.length_cons, List.length_cons,
            ihRest ⟨ones.1, all.2⟩ all.2]
        | two x y leading => cases all.1
    cases word with
    | two x y leading => cases ones.1
    | one s =>
      cases others with
      | nil => cases each
      | cons other tail =>
        have eachRest : tail.length = rest.length := Nat.succ.inj each
        cases other with
        | one t =>
          obtain ⟨rfl, sameRest⟩ := List.cons.inj same
          rw [ih ones.2 sameRest eachRest]
        | two x y leading =>
          have lengths : (digits tail).length + 1 = (digits rest).length :=
            congrArg List.length (List.cons.inj same).2
          have bound := length_le_digits tail
          omega

/-! ### Words that can be grouped otherwise -/

/-- A word of one digit can be grouped with one of its neighbours. -/
inductive Neighbours : List (Word leads) → Prop where
  | following (left right : List (Word leads)) (s : δ) (word : Word leads) (leading : leads s) :
      Neighbours (left ++ .one s :: word :: right)
  | preceding (left right : List (Word leads)) (x y s : δ) (leading : leads x) (leadsY : leads y) :
      Neighbours (left ++ .two x y leading :: .one s :: right)

theorem Neighbours.cons (word : Word leads) (found : Neighbours words) :
    Neighbours (word :: words) := by
  cases found with
  | following left right s next leading => exact .following (word :: left) right s next leading
  | preceding left right x y s leading leadsY =>
    exact .preceding (word :: left) right x y s leading leadsY

/-- Where a word of one digit can be grouped with a neighbour, or with the digit before. -/
theorem exists_neighbours (groups : ¬ Isolated before words) :
    (∃ d ∈ before, leads d ∧ ∃ s rest, words = .one s :: rest) ∨ Neighbours words := by
  induction words generalizing before with
  | nil => exact absurd trivial groups
  | cons word rest ih =>
    cases word with
    | two x y leading =>
      have groupsRest : ¬ Isolated (some y) rest := groups
      rcases ih groupsRest with ⟨d, here, leadsY, s, right, rfl⟩ | found
      · cases here
        exact .inr (.preceding [] right x y s leading leadsY)
      · exact .inr (found.cons _)
    | one s =>
      by_cases alone : rest = [] ∨ ¬ leads s
      · by_cases apart : ∀ d ∈ before, ¬ leads d
        · have groupsRest : ¬ Isolated (some s) rest := fun isolated =>
            groups ⟨alone, apart, isolated⟩
          rcases ih groupsRest with ⟨d, here, leadsS, t, right, rfl⟩ | found
          · cases here
            exact .inr (.following [] right s (.one t) leadsS)
          · exact .inr (found.cons _)
        · simp only [not_forall, not_not] at apart
          obtain ⟨d, here, leading⟩ := apart
          exact .inl ⟨d, here, leading, s, rest, rfl⟩
      · rw [not_or, not_not] at alone
        obtain ⟨word, right, rfl⟩ := List.exists_cons_of_ne_nil alone.1
        exact .inr (.following [] right s word alone.2)

theorem exists_two (word : Word leads) (isTwo : word.isOne = false) :
    ∃ x y leading, word = .two x y leading := by
  cases word with
  | one s => cases isTwo
  | two x y leading => exact ⟨x, y, leading, rfl⟩

theorem append_one_ne {left right more : List (Word leads)} {s x y : δ} {leading : leads x} :
    left ++ .two x y leading :: more ≠ left ++ .one s :: right := by
  intro same
  cases (List.cons.inj (List.append_cancel_left same)).1

theorem exists_other (groups : ¬ Isolated none words)
    (two : ∃ word ∈ words, word.isOne = false) :
    ∃ others : List (Word leads),
      digits others = digits words ∧ others.length = words.length ∧ others ≠ words := by
  rcases exists_neighbours groups with ⟨d, here, -⟩ | ⟨left, right, s, word, leadsS⟩ |
    ⟨left, right, x, y, s, leading, leadsY⟩
  · cases here
  · cases word with
    | two x y leading =>
      refine ⟨left ++ .two s x leadsS :: .one y :: right, ?_, ?_, append_one_ne⟩
      · simp [digits_append]
      · simp
    | one t =>
      obtain ⟨word, member, isTwo⟩ := two
      rw [List.mem_append, List.mem_cons, List.mem_cons] at member
      obtain ⟨x, y, leading, rfl⟩ := exists_two word isTwo
      rcases member with inLeft | same | same | inRight
      · obtain ⟨front, back, rfl⟩ := List.append_of_mem inLeft
        refine ⟨front ++ .one x :: .one y :: (back ++ .two s t leadsS :: right), ?_, ?_, ?_⟩
        · simp [digits_append]
        · simp only [List.length_append, List.length_cons]
          omega
        · rw [List.append_assoc, List.cons_append]
          exact append_one_ne.symm
      · cases same
      · cases same
      · obtain ⟨front, back, rfl⟩ := List.append_of_mem inRight
        refine ⟨left ++ .two s t leadsS :: (front ++ .one x :: .one y :: back), ?_, ?_,
          append_one_ne⟩
        · simp [digits_append]
        · simp only [List.length_append, List.length_cons]
          omega
  · refine ⟨left ++ .one x :: .two y s leadsY :: right, ?_, ?_, ?_⟩
    · simp [digits_append]
    · simp
    · exact fun same => append_one_ne same.symm

/-- Words are known from their digits and their number exactly when all have one digit or those of
one digit are isolated. -/
theorem unique_iff (words : List (Word leads)) :
    (∀ others : List (Word leads), digits others = digits words →
      others.length = words.length → others = words) ↔
    (∀ word ∈ words, word.isOne = true) ∨ Isolated none words := by
  constructor
  · intro unique
    by_contra neither
    rw [not_or] at neither
    have two : ∃ word ∈ words, word.isOne = false := by simpa using neither.1
    obtain ⟨others, same, each, different⟩ := exists_other neither.2 two
    exact different (unique others same each)
  · rintro (ones | isolated) others same each
    · exact ones_unique ones same each
    · exact isolated.unique same each

end ProgramLogic.DigitWords
