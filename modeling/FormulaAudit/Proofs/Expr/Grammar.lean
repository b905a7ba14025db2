import FormulaAudit.Proofs.Expr.Rendering

/-!
The infix grammar `E ::= operand | E op E | ( E ) | F ( ) | F ( E , … , E )`, and what it says about
the place of each single token: operators stand between operands, operands do not touch, no argument
and no group is empty, and commas stand in the parentheses of a call.
-/

namespace FormulaAudit

namespace Token

variable {t : Token} {back after : List Token}

instance : DecidablePred IsOperand :=
  fun t => inferInstanceAs (Decidable (t.kind ≠ .operator ∧ t.kind ≠ .function))

instance (t : Token) (symbol : String) : Decidable (t.IsSymbol symbol) :=
  inferInstanceAs (Decidable (t.kind = .operator ∧ t.value = symbol))

instance : DecidablePred IsInfix := fun t =>
  inferInstanceAs (Decidable (t.kind = .operator ∧ t.value ≠ "(" ∧ t.value ≠ ")" ∧ t.value ≠ ","))

def StartsOperand (t : Token) : Prop :=
  t.IsOperand ∨ t.kind = .function ∨ t.IsSymbol "("
  deriving Decidable

def EndsOperand (t : Token) : Prop :=
  t.IsOperand ∨ t.IsSymbol ")"
  deriving Decidable

lemma IsInfix.not_startsOperand (h : t.IsInfix) : ¬ t.StartsOperand := by
  rintro (ho | hf | hs)
  · exact ho.1 h.1
  · simp [h.1] at hf
  · exact h.2.1 hs.2

lemma IsInfix.not_endsOperand (h : t.IsInfix) : ¬ t.EndsOperand := by
  rintro (ho | hs)
  · exact ho.1 h.1
  · exact h.2.2.1 hs.2

lemma IsSymbol.not_isInfix {symbol : String} (h : t.IsSymbol symbol)
    (hs : symbol = "(" ∨ symbol = ")" ∨ symbol = ",") : ¬ t.IsInfix := by
  rintro ⟨-, h₁, h₂, h₃⟩
  rcases hs with rfl | rfl | rfl
  · exact h₁ h.2
  · exact h₂ h.2
  · exact h₃ h.2

lemma IsSymbol.not_isSymbol {s s' : String} (h : t.IsSymbol s) (hne : s ≠ s') : ¬ t.IsSymbol s' :=
  fun h' => hne (h.2.symm.trans h'.2)

lemma IsSymbol.not_startsOperand {symbol : String} (h : t.IsSymbol symbol) (hne : symbol ≠ "(") :
    ¬ t.StartsOperand := by
  rintro (ho | hf | hs)
  · exact ho.1 h.1
  · simp [h.1] at hf
  · exact h.not_isSymbol hne hs

lemma IsSymbol.not_endsOperand {symbol : String} (h : t.IsSymbol symbol) (hne : symbol ≠ ")") :
    ¬ t.EndsOperand := by
  rintro (ho | hs)
  · exact ho.1 h.1
  · exact h.not_isSymbol hne hs

lemma IsOperand.not_isSymbol (h : t.IsOperand) (symbol : String) : ¬ t.IsSymbol symbol :=
  fun hs => h.1 hs.1

lemma not_isSymbol_of_function (h : t.kind = .function) (symbol : String) : ¬ t.IsSymbol symbol := by
  rintro ⟨hk, -⟩
  simp [h] at hk

lemma not_endsOperand_of_function (h : t.kind = .function) : ¬ t.EndsOperand := by
  rintro (ho | hs)
  · exact ho.2 h
  · exact not_isSymbol_of_function h _ hs

/-! The tokens before a place are given nearest first. -/

def AfterOperand (back : List Token) : Prop :=
  ∃ t ∈ back.head?, t.EndsOperand
  deriving Decidable

def BeforeOperand (after : List Token) : Prop :=
  ∃ t ∈ after.head?, t.StartsOperand
  deriving Decidable

def AfterCallParen (back : List Token) : Prop :=
  (∃ lp ∈ back.head?, lp.IsSymbol "(") ∧ ∃ f ∈ back.tail.head?, f.kind = .function
  deriving Decidable

@[simp] lemma afterOperand_cons : AfterOperand (t :: back) ↔ t.EndsOperand := by
  simp [AfterOperand]

@[simp] lemma not_afterOperand_nil : ¬ AfterOperand [] := by
  simp [AfterOperand]

@[simp] lemma beforeOperand_cons : BeforeOperand (t :: after) ↔ t.StartsOperand := by
  simp [BeforeOperand]

@[simp] lemma not_beforeOperand_nil : ¬ BeforeOperand [] := by
  simp [BeforeOperand]

lemma AfterCallParen.exists_cons (h : AfterCallParen back) :
    ∃ lp f rest, back = lp :: f :: rest ∧ lp.IsSymbol "(" ∧ f.kind = .function := by
  obtain ⟨⟨lp, hlp, hs⟩, f, hf, hk⟩ := h
  rcases back with _ | ⟨lp', _ | ⟨f', rest⟩⟩
  · simp at hlp
  · simp at hf
  · simp only [List.head?_cons, List.tail_cons, Option.mem_some_iff] at hlp hf
    subst hlp hf
    exact ⟨_, _, rest, rfl, hs, hk⟩

lemma AfterCallParen.not_afterOperand (h : AfterCallParen back) : ¬ AfterOperand back := by
  obtain ⟨lp, f, rest, rfl, hlp, -⟩ := h.exists_cons
  simpa using hlp.not_endsOperand (by simp)

/-- Going back, with `depth` closing parentheses still to be matched, the first opening one that is left
over is the one of a call. -/
def inCall : Nat → List Token → Bool
  | _, [] => false
  | depth, t :: back =>
    if t.IsSymbol ")" then inCall (depth + 1) back
    else if t.IsSymbol "(" then
      match depth with
      | 0 => AfterCallParen (t :: back)
      | depth + 1 => inCall depth back
    else inCall depth back

lemma inCall_close (ht : t.IsSymbol ")") (depth : Nat) (back : List Token) :
    inCall depth (t :: back) = inCall (depth + 1) back := by
  rw [inCall.eq_def]
  exact if_pos ht

lemma inCall_open (ht : t.IsSymbol "(") (back : List Token) :
    inCall 0 (t :: back) = true ↔ AfterCallParen (t :: back) := by
  rw [inCall, if_neg (ht.not_isSymbol (by simp)), if_pos ht, decide_eq_true_iff]

lemma inCall_open_succ (ht : t.IsSymbol "(") (depth : Nat) (back : List Token) :
    inCall (depth + 1) (t :: back) = inCall depth back := by
  rw [inCall, if_neg (ht.not_isSymbol (by simp)), if_pos ht]

lemma inCall_other (hc : ¬ t.IsSymbol ")") (ho : ¬ t.IsSymbol "(") (depth : Nat) (back : List Token) :
    inCall depth (t :: back) = inCall depth back := by
  rw [inCall.eq_def]
  exact (if_neg hc).trans (if_neg ho)

def Closed (ts : List Token) : Prop :=
  ∀ depth back, inCall depth (ts.reverse ++ back) = inCall depth back

lemma closed_nil : Closed [] :=
  fun _ _ => rfl

lemma closed_singleton (hc : ¬ t.IsSymbol ")") (ho : ¬ t.IsSymbol "(") : Closed [t] :=
  fun depth back => inCall_other hc ho depth back

lemma Closed.append {ts us : List Token} (h : Closed ts) (h' : Closed us) : Closed (ts ++ us) := by
  intro depth back
  rw [List.reverse_append, List.append_assoc, h', h]

lemma Closed.enclose {lp rp : Token} {ts : List Token} (h : Closed ts) (hlp : lp.IsSymbol "(")
    (hrp : rp.IsSymbol ")") : Closed (lp :: (ts ++ [rp])) := by
  intro depth back
  have hin := (h (depth + 1) (lp :: back)).trans (inCall_open_succ hlp depth back)
  simpa [inCall_close hrp] using hin

/-- The token may stand between the tokens `back`, nearest first, and the tokens `after`. -/
@[mk_iff]
structure Placed (back : List Token) (t : Token) (after : List Token) : Prop where
  operator : t.IsInfix → AfterOperand back ∧ BeforeOperand after
  operand : t.StartsOperand → ¬ AfterOperand back
  -- a part of an expression that ends here is not empty, except for all the arguments of a call
  part : t.IsSymbol "," ∨ t.IsSymbol ")" →
    AfterOperand back ∨ (t.IsSymbol ")" ∧ AfterCallParen back)
  comma : t.IsSymbol "," → inCall 0 back = true

instance (back : List Token) (t : Token) (after : List Token) : Decidable (Placed back t after) :=
  decidable_of_iff' _ (placed_iff back t after)

def WellPlaced (ts : List Token) : Prop :=
  ∀ back t after, ts = back.reverse ++ t :: after → Placed back t after

lemma placed_start (ht : t.StartsOperand) (hb : ¬ AfterOperand back) : Placed back t after where
  operator hi := absurd ht hi.not_startsOperand
  operand _ := hb
  part hs := by
    rcases hs with hs | hs
    · exact absurd ht (hs.not_startsOperand (by simp))
    · exact absurd ht (hs.not_startsOperand (by simp))
  comma hs := absurd ht (hs.not_startsOperand (by simp))

lemma placed_infix (ht : t.IsInfix) (hb : AfterOperand back) (ha : BeforeOperand after) :
    Placed back t after where
  operator _ := ⟨hb, ha⟩
  operand hs := absurd hs ht.not_startsOperand
  part _ := .inl hb
  comma hs := absurd ht (hs.not_isInfix (by simp))

lemma placed_close (ht : t.IsSymbol ")") (hb : AfterOperand back ∨ AfterCallParen back) :
    Placed back t after where
  operator hi := absurd hi (ht.not_isInfix (by simp))
  operand hs := absurd hs (ht.not_startsOperand (by simp))
  part _ := hb.imp_right fun h => ⟨ht, h⟩
  comma hs := absurd hs (ht.not_isSymbol (by simp))

lemma placed_comma (ht : t.IsSymbol ",") (hb : AfterOperand back) (hc : inCall 0 back = true) :
    Placed back t after where
  operator hi := absurd hi (ht.not_isInfix (by simp))
  operand hs := absurd hs (ht.not_startsOperand (by simp))
  part _ := .inl hb
  comma _ := hc

def PlacedIn (back : List Token) : List Token → List Token → Prop
  | [], _ => True
  | t :: ts, after => Placed back t (ts ++ after) ∧ PlacedIn (t :: back) ts after

lemma placedIn_append {ts us : List Token} :
    PlacedIn back (ts ++ us) after ↔
      PlacedIn back ts (us ++ after) ∧ PlacedIn (ts.reverse ++ back) us after := by
  induction ts generalizing back with
  | nil => simp [PlacedIn]
  | cons t ts ih => simp [PlacedIn, ih, and_assoc]

lemma placedIn_iff {ts : List Token} :
    PlacedIn back ts after ↔
      ∀ pre t post, ts = pre ++ t :: post → Placed (pre.reverse ++ back) t (post ++ after) := by
  constructor
  · rintro h pre t post rfl
    exact (placedIn_append.mp h).2.1
  · intro h
    induction ts generalizing back with
    | nil => trivial
    | cons t ts ih =>
      refine ⟨h [] t ts rfl, ih fun pre u post hts => ?_⟩
      simpa using h (t :: pre) u post (by simp [hts])

lemma wellPlaced_iff {ts : List Token} : WellPlaced ts ↔ PlacedIn [] ts [] := by
  rw [placedIn_iff]
  constructor
  · intro h pre t post hts
    simpa using h pre.reverse t post (by simpa using hts)
  · intro h back t after hts
    simpa using h back.reverse t after hts

instance decidablePlacedIn : ∀ back ts after, Decidable (PlacedIn back ts after)
  | _, [], _ => inferInstanceAs (Decidable True)
  | back, t :: ts, after =>
    have := decidablePlacedIn (t :: back) ts after
    inferInstanceAs (Decidable (Placed back t (ts ++ after) ∧ PlacedIn (t :: back) ts after))

instance : DecidablePred WellPlaced :=
  fun _ => decidable_of_iff' _ wellPlaced_iff

end Token

namespace Expr

open Token

inductive Derives : Expr → List Token → Prop
  | operand {t : Token} : t.IsOperand → Derives (.leaf t) [t]
  | binary {op : Token} {l r : Expr} {ls rs : List Token} : op.IsInfix → Derives l ls → Derives r rs →
      Derives (.binary op l r) (ls ++ op :: rs)
  | group {e : Expr} {lp rp : Token} {ts : List Token} :
      lp.IsSymbol "(" → rp.IsSymbol ")" → Derives e ts → Derives e (lp :: (ts ++ [rp]))
  | call {f lp rp : Token} {args : List (Expr × List Token)} {ts : List Token} :
      f.kind = .function → lp.IsSymbol "(" → rp.IsSymbol ")" → (∀ a ∈ args, Derives a.1 a.2) →
      Separated (args.map (·.2)) ts → Derives (.call f (args.map (·.1))) (f :: lp :: (ts ++ [rp]))

lemma Separated.snoc {parts : List (List Token)} {ts : List Token} {comma : Token}
    (h : Separated parts ts) (hne : parts ≠ []) (hcomma : comma.IsSymbol ",") (part : List Token) :
    Separated (parts ++ [part]) (ts ++ comma :: part) := by
  induction h with
  | nil => exact absurd rfl hne
  | single _ => exact .cons hcomma (.single part)
  | cons hc _ ih => simpa using Separated.cons hc (ih (by simp))

lemma Separated.closed {parts : List (List Token)} {ts : List Token} (h : Separated parts ts)
    (hparts : ∀ part ∈ parts, Closed part) : Closed ts := by
  induction h with
  | nil => exact closed_nil
  | single part => exact hparts part (by simp)
  | @cons part next ts parts comma hcomma _ ih =>
    have hc : Closed [comma] :=
      closed_singleton (hcomma.not_isSymbol (by simp)) (hcomma.not_isSymbol (by simp))
    exact (hparts part (by simp)).append (hc.append (ih fun p hp => hparts p (by simp [hp])))

namespace Derives

variable {e : Expr} {ts : List Token}

lemma afterOperand (h : Derives e ts) (back : List Token) : AfterOperand (ts.reverse ++ back) := by
  induction h generalizing back with
  | operand ht => simp [EndsOperand, ht]
  | binary _ _ _ _ ihr => simpa using ihr _
  | group _ hrp _ _ | call _ _ hrp _ _ _ => simp [EndsOperand, hrp]

lemma beforeOperand (h : Derives e ts) (after : List Token) : BeforeOperand (ts ++ after) := by
  induction h generalizing after with
  | operand ht => simp [StartsOperand, ht]
  | binary _ _ _ ihl _ => simpa using ihl _
  | group hlp _ _ _ => simp [StartsOperand, hlp]
  | call hf _ _ _ _ _ => simp [StartsOperand, hf]

lemma closed (h : Derives e ts) : Closed ts := by
  induction h with
  | operand ht => exact closed_singleton (ht.not_isSymbol _) (ht.not_isSymbol _)
  | binary hop _ _ ihl ihr =>
    have hop : Closed [_] := closed_singleton (fun h => h.not_isInfix (by simp) hop)
      (fun h => h.not_isInfix (by simp) hop)
    exact ihl.append (hop.append ihr)
  | group hlp hrp _ ih => exact ih.enclose hlp hrp
  | call hf hlp hrp _ hsep ih =>
    have hname : Closed [_] :=
      closed_singleton (not_isSymbol_of_function hf _) (not_isSymbol_of_function hf _)
    exact hname.append ((hsep.closed (List.forall_mem_map.mpr ih)).enclose hlp hrp)

end Derives

namespace Separated

variable {parts : List (List Token)} {ts : List Token}

lemma afterOperand (h : Separated parts ts) (hne : parts ≠ [])
    (hparts : ∀ part ∈ parts, ∃ e, Derives e part) (back : List Token) :
    AfterOperand (ts.reverse ++ back) := by
  induction h generalizing back with
  | nil => exact absurd rfl hne
  | single part =>
    obtain ⟨e, he⟩ := hparts part (by simp)
    exact he.afterOperand back
  | cons _ _ ih => simpa using ih (by simp) (fun p hp => hparts p (by simp [hp])) _

lemma placedIn (h : Separated parts ts) (hparts : ∀ part ∈ parts, ∃ e, Derives e part)
    (hplaced : ∀ part ∈ parts, ∀ back after, ¬ AfterOperand back → PlacedIn back part after)
    {back : List Token} (after : List Token) (hb : ¬ AfterOperand back) (hc : inCall 0 back = true) :
    PlacedIn back ts after := by
  induction h generalizing back with
  | nil => trivial
  | single part => exact hplaced part (by simp) back after hb
  | @cons part next ts parts comma hcomma _ ih =>
    obtain ⟨e, he⟩ := hparts part (by simp)
    have hin : inCall 0 (part.reverse ++ back) = true := (he.closed 0 back).trans hc
    refine placedIn_append.mpr ⟨hplaced part (by simp) back _ hb, ?_, ?_⟩
    · exact placed_comma hcomma (he.afterOperand back) hin
    · -- the next argument starts after the comma, in the same parentheses
      apply ih (fun p hp => hparts p (by simp [hp])) fun p hp => hplaced p (by simp [hp])
      · simpa using hcomma.not_endsOperand (by simp)
      · rw [inCall_other (hcomma.not_isSymbol (by simp)) (hcomma.not_isSymbol (by simp))]
        exact hin

end Separated

lemma Derives.placedIn {e : Expr} {ts : List Token} (h : Derives e ts) (back after : List Token)
    (hb : ¬ AfterOperand back) : PlacedIn back ts after := by
  induction h generalizing back after with
  | operand ht => exact ⟨placed_start (.inl ht) hb, trivial⟩
  | binary hop hl hr ihl ihr =>
    refine placedIn_append.mpr ⟨ihl _ _ hb, ?_, ?_⟩
    · exact placed_infix hop (hl.afterOperand back) (hr.beforeOperand after)
    · exact ihr _ _ (by simpa using hop.not_endsOperand)
  | group hlp hrp he ih =>
    refine ⟨placed_start (.inr (.inr hlp)) hb, placedIn_append.mpr ⟨?_, ?_, trivial⟩⟩
    · exact ih _ _ (by simpa using hlp.not_endsOperand (by simp))
    · exact placed_close hrp (.inl (he.afterOperand _))
  | @call f lp rp args ts hf hlp hrp hargs hsep ih =>
    have hparts : ∀ part ∈ args.map (·.2), ∃ e, Derives e part :=
      List.forall_mem_map.mpr fun a ha => ⟨a.1, hargs a ha⟩
    have hparen : AfterCallParen (lp :: f :: back) := by simp [AfterCallParen, hlp, hf]
    refine ⟨placed_start (.inr (.inl hf)) hb, placed_start (.inr (.inr hlp)) ?_, ?_⟩
    · simpa using not_endsOperand_of_function hf
    · refine placedIn_append.mpr ⟨?_, placed_close hrp ?_, trivial⟩
      · exact hsep.placedIn hparts (List.forall_mem_map.mpr ih) _ hparen.not_afterOperand
          ((inCall_open hlp _).mpr hparen)
      · by_cases hne : args = []
        · subst hne
          cases hsep
          exact .inr hparen
        · exact .inl (hsep.afterOperand (by simpa using hne) hparts _)

lemma Derives.wellPlaced {e : Expr} {ts : List Token} (h : Derives e ts) : WellPlaced ts :=
  wellPlaced_iff.mpr (h.placedIn [] [] (by simp))

end Expr

end FormulaAudit
