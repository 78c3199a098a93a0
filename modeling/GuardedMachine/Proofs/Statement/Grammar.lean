/-
# The grammar of statements

    statement      := or ';'
    or             := and ( '||' and )*
    and            := not ( '&&' not )*
    not            := '!' not | comparison
    comparison     := additive ( ( '==' | '<>' | '<' | '<=' | '>' | '>=' ) additive )*
    additive       := multiplicative ( ( '+' | '-' ) multiplicative )*
    multiplicative := negation ( ( '*' | '/' ) negation )*
    negation       := '-' negation | primary
    primary        := literal | path | '(' or ')'

The eight levels are the nonterminals, and the repetitions group to the left.  A derivation is
counted along with what it derives: by the greatest number of parentheses, `!` and `-` in front
of an operand that are open at once.
-/
import Mathlib.Tactic.Lemma
import GuardedMachine.Statement.Parser

namespace GuardedMachine

/-- The symbols between two operands, with the level of the expressions that they make. -/
inductive Joins : Level → Symbol → BinaryOp → Prop
  | or : Joins .disjunction .or (.logic .or)
  | and : Joins .conjunction .and (.logic .and)
  | equal : Joins .comparison .equal (.equality .equal)
  | notEqual : Joins .comparison .notEqual (.equality .notEqual)
  | less : Joins .comparison .less (.order .less)
  | atMost : Joins .comparison .atMost (.order .atMost)
  | greater : Joins .comparison .greater (.order .greater)
  | atLeast : Joins .comparison .atLeast (.order .atLeast)
  | plus : Joins .sum .plus (.arith .add)
  | minus : Joins .sum .minus (.arith .sub)
  | star : Joins .product .star (.arith .mul)
  | slash : Joins .product .slash (.arith .div)

/-- The symbols in front of an operand, with the level of the expressions that they make. -/
inductive Precedes : Level → Symbol → UnaryOp → Prop
  | bang : Precedes .negation .bang .not
  | minus : Precedes .sign .minus .neg

/-- `Derives level n ts e`: the tokens `ts` are an expression of the level, with the tree `e`,
and at most `n` parentheses and unary operators are open at once, `n` of them somewhere. -/
inductive Derives : Level → Nat → List Token → Expr → Prop
  | literal (v : Value) : Derives .operand 0 [.literal v] (.literal v)
  | path (p : Path) : Derives .operand 0 [.path p] (.path p)
  | paren {n : Nat} {ts : List Token} {e : Expr} :
    Derives .disjunction n ts e →
      Derives .operand (n + 1) (.symbol .openParen :: (ts ++ [.symbol .closeParen])) e
  | unary {level : Level} {s : Symbol} {op : UnaryOp} {n : Nat} {ts : List Token} {e : Expr} :
    Precedes level s op → Derives level n ts e →
      Derives level (n + 1) (.symbol s :: ts) (.unary op e)
  | binary {level : Level} {s : Symbol} {op : BinaryOp} {n k : Nat} {us vs : List Token}
      {left right : Expr} :
    Joins level s op → Derives level n us left → Derives level.tighter k vs right →
      Derives level (max n k) (us ++ .symbol s :: vs) (.binary op left right)
  | climb {level : Level} {n : Nat} {ts : List Token} {e : Expr} :
    Derives level.tighter n ts e → Derives level n ts e

/-- The tokens of a statement: an expression and a semicolon. -/
def DerivesStatement (n : Nat) (ts : List Token) (e : Expr) : Prop :=
  ∃ us, ts = us ++ [.symbol .semicolon] ∧ Derives .disjunction n us e

/-! ## Levels -/

namespace Level

lemma rank_injective {a b : Level} (h : a.rank = b.rank) : a = b := by
  cases a <;> cases b <;> first | rfl | cases h

lemma le_refl (a : Level) : a ≤ a := Nat.le_refl a.rank

lemma le_trans {a b c : Level} (hab : a ≤ b) (hbc : b ≤ c) : a ≤ c := Nat.le_trans hab hbc

lemma le_antisymm {a b : Level} (hab : a ≤ b) (hba : b ≤ a) : a = b :=
  rank_injective (Nat.le_antisymm hab hba)

lemma le_of_not_le {a b : Level} (h : ¬ a ≤ b) : b ≤ a := Nat.le_of_not_le h

lemma disjunction_le (a : Level) : .disjunction ≤ a := Nat.zero_le a.rank

lemma le_operand (a : Level) : a ≤ .operand := by cases a <;> decide

lemma le_tighter (a : Level) : a ≤ a.tighter := by cases a <;> decide

/-- Between a level and the next one there is none. -/
lemma tighter_le_iff {a b : Level} (ha : a ≠ .operand) : a.tighter ≤ b ↔ ¬ b ≤ a := by
  cases a <;> cases b <;> revert ha <;> decide

end Level

/-! ## The symbols of operators -/

lemma joins_iff {level : Level} {s : Symbol} {op : BinaryOp} :
    Joins level s op ↔ s.binary? = some op ∧ op.level = level := by
  constructor
  · rintro ⟨⟩ <;> exact ⟨rfl, rfl⟩
  · rintro ⟨h, rfl⟩
    cases s <;> simp only [Symbol.binary?, reduceCtorEq, Option.some.injEq] at h <;> subst h <;>
      constructor

lemma exists_joins_of_binary? {t : Token} {op : BinaryOp} (h : t.binary? = some op) :
    ∃ s, t = .symbol s ∧ Joins op.level s op := by
  rcases t with _ | _ | s
  · cases h
  · cases h
  · exact ⟨s, rfl, joins_iff.2 ⟨h, rfl⟩⟩

lemma precedes_iff {level : Level} {s : Symbol} {op : UnaryOp} :
    Precedes level s op ↔ s.unary? = some op ∧ op.level = level := by
  constructor
  · rintro ⟨⟩ <;> exact ⟨rfl, rfl⟩
  · rintro ⟨h, rfl⟩
    cases s <;> simp only [Symbol.unary?, reduceCtorEq, Option.some.injEq] at h <;> subst h <;>
      constructor

lemma BinaryOp.level_ne_operand (op : BinaryOp) : op.level ≠ .operand := by
  rcases op with (_ | _ | _ | _) | _ | _ | (_ | _) <;> simp [level]

/-- The levels of unary operators are not those of binary ones. -/
lemma level_unary_ne_binary (op : UnaryOp) (op' : BinaryOp) : op.level ≠ op'.level := by
  cases op <;> rcases op' with (_ | _ | _ | _) | _ | _ | (_ | _) <;>
    simp [UnaryOp.level, BinaryOp.level]

/-! ## Derivations -/

/-- What is derived at a level is derived at every looser one. -/
lemma Derives.of_le {a b : Level} {n : Nat} {ts : List Token} {e : Expr} (h : Derives b n ts e)
    (hab : a ≤ b) : Derives a n ts e := by
  induction hd : b.rank - a.rank generalizing a with
  | zero =>
    obtain rfl := Level.le_antisymm hab (Nat.sub_eq_zero_iff_le.1 hd)
    exact h
  | succ d ih =>
    have hne : a ≠ .operand := by
      rintro rfl
      obtain rfl := Level.le_antisymm hab b.le_operand
      simp at hd
    have hlt : a.tighter ≤ b := by
      rw [Level.tighter_le_iff hne, Level.le_def]
      omega
    refine Derives.climb (ih hlt ?_)
    have hrank : a.tighter.rank = a.rank + 1 := by cases a <;> first | rfl | exact absurd rfl hne
    omega

end GuardedMachine
