/-! # Names of markets and accounts

Markets and accounts are known by opaque names. A name is its text, and names
of one kind are ordered by their texts, code point by code point. This order is
the global one in which markets are visited and locked.
-/

namespace MoneyMarket

/-- The name of a market. -/
@[ext]
structure MarketId where
  text : String
  deriving DecidableEq, Inhabited

/-- The name of an account: a user, a liquidator, the admin or a guardian. -/
@[ext]
structure AccountId where
  text : String
  deriving DecidableEq, Inhabited

/-- A kind of names: each text is the text of exactly one name. -/
class Name (ι : Type) where
  text : ι → String
  ofText : String → ι
  text_ofText : ∀ s, text (ofText s) = s
  ofText_text : ∀ a, ofText (text a) = a

instance : Name MarketId where
  text := MarketId.text
  ofText := MarketId.mk
  text_ofText _ := rfl
  ofText_text _ := rfl

instance : Name AccountId where
  text := AccountId.text
  ofText := AccountId.mk
  text_ofText _ := rfl
  ofText_text _ := rfl

namespace Name

variable {ι : Type} [Name ι]

/-- The order of names. -/
def Before (a b : ι) : Prop := text a < text b

instance (a b : ι) : Decidable (Before a b) := inferInstanceAs (Decidable (text a < text b))

theorem text_injective {a b : ι} (htext : text a = text b) : a = b := by
  rw [← ofText_text a, ← ofText_text b, htext]

theorem Before.irrefl (a : ι) : ¬Before a a := String.lt_irrefl _

theorem Before.trans {a b c : ι} (hab : Before a b) (hbc : Before b c) : Before a c :=
  String.lt_trans hab hbc

theorem Before.asymm {a b : ι} (hab : Before a b) : ¬Before b a := String.lt_asymm hab

theorem Before.ne {a b : ι} (hab : Before a b) : a ≠ b := by
  rintro rfl
  exact Before.irrefl a hab

theorem before_of_not_before {a b : ι} (hab : ¬Before a b) (hne : a ≠ b) : Before b a := by
  rcases Decidable.em (Before b a) with hba | hba
  · exact hba
  · have heq : text a = text b :=
      String.le_antisymm (String.not_lt.mp hba) (String.not_lt.mp hab)
    exact absurd (text_injective heq) hne

/-- Names in ascending order. A name that occurs twice stays twice. -/
def sort (names : List ι) : List ι := names.mergeSort fun a b => !decide (Before b a)

variable [DecidableEq ι]

/-- Adds a name to an ascending list, unless it is there. -/
def insertDistinct (a : ι) : List ι → List ι
  | [] => [a]
  | b :: rest =>
    if Before a b then a :: b :: rest
    else if a = b then b :: rest
    else b :: insertDistinct a rest

/-- The distinct names of a list in ascending order. -/
def sortDistinct (names : List ι) : List ι := names.foldr insertDistinct []

theorem mem_insertDistinct {a b : ι} {names : List ι} :
    b ∈ insertDistinct a names ↔ b = a ∨ b ∈ names := by
  induction names with
  | nil => simp [insertDistinct]
  | cons c rest ih =>
    rw [insertDistinct]
    split
    · simp
    · split
      next heq => simp [heq]
      next => simp [ih, or_left_comm]

theorem pairwise_insertDistinct {a : ι} {names : List ι} (hnames : names.Pairwise Before) :
    (insertDistinct a names).Pairwise Before := by
  induction names with
  | nil => simp [insertDistinct]
  | cons b rest ih =>
    obtain ⟨hb, hrest⟩ := List.pairwise_cons.mp hnames
    rw [insertDistinct]
    split
    next hab =>
      refine List.pairwise_cons.mpr ⟨fun c hc => ?_, hnames⟩
      rcases List.mem_cons.mp hc with rfl | hc
      · exact hab
      · exact hab.trans (hb c hc)
    next hab =>
      split
      · exact hnames
      next hne =>
        refine List.pairwise_cons.mpr ⟨fun c hc => ?_, ih hrest⟩
        rcases mem_insertDistinct.mp hc with rfl | hc
        · exact before_of_not_before hab hne
        · exact hb c hc

theorem mem_sortDistinct {a : ι} {names : List ι} : a ∈ sortDistinct names ↔ a ∈ names := by
  induction names with
  | nil => simp [sortDistinct]
  | cons b rest ih =>
    rw [sortDistinct] at ih
    simp [sortDistinct, mem_insertDistinct, ih]

theorem pairwise_sortDistinct (names : List ι) : (sortDistinct names).Pairwise Before := by
  induction names with
  | nil => exact List.Pairwise.nil
  | cons b rest ih => exact pairwise_insertDistinct ih

end Name

end MoneyMarket
