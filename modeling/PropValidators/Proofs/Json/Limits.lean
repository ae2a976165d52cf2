import PropValidators.Proofs.Json.RoundTrip
/-!
Documents and texts under limits: what is kept by all documents of a size, and that reading within
limits gives what it gives without any, unless it is broken off.
-/
namespace PropValidators

namespace Limits

variable {limits : Limits} {m n : Nat}

/-- What a limit allows, if there is one, it allows less of. -/
theorem allows_of_le {limit : Option Nat} (hn : limit.all (n ≤ ·) = true) (h : m ≤ n) :
    limit.all (m ≤ ·) = true := by
  cases limit with
  | none => rfl
  | some most => exact decide_eq_true (h.trans (of_decide_eq_true hn))

theorem allowDigits_of_le (hn : limits.allowDigits n = true) (h : m ≤ n) :
    limits.allowDigits m = true := allows_of_le hn h

theorem allowNesting_of_le (hn : limits.allowNesting n = true) (h : m ≤ n) :
    limits.allowNesting m = true := allows_of_le hn h

theorem allowValidators_of_le (hn : limits.allowValidators n = true) (h : m ≤ n) :
    limits.allowValidators m = true := allows_of_le hn h

end Limits

namespace Json

variable {limits : Limits}

/-! ### Documents within limits -/

theorem length_ofNat_natAbs_le (n : Int) :
    (Digits.ofNat n.natAbs).length ≤ (Digits.ofInt n).length := by
  cases n with
  | ofNat n => exact Nat.le_refl _
  | negSucc n => exact Nat.le_succ _

mutual

/-- A document keeps limits of its depth and of the length of its integers. -/
theorem overrun?_eq_none : (j : Json) → (level : Nat) →
    limits.allowNesting (level + j.depth) = true → limits.allowDigits j.integerLength = true →
    j.overrun? limits level = none
  | null, _, _, _ | bool _, _, _, _ | float _, _, _, _ | string _, _, _, _ => rfl
  | int n, _, _, hdigits => by
    rw [overrun?, Limits.allowDigits_of_le hdigits (length_ofNat_natAbs_le n)]
    rfl
  | array items, level, hnesting, hdigits => by
    have hdepth : level + (array items).depth = level + 1 + depthOfItems items := by
      rw [depth]
      omega
    rw [hdepth] at hnesting
    rw [overrun?, Limits.allowNesting_of_le hnesting (Nat.le_add_right _ _)]
    exact overrunOfItems?_eq_none items (level + 1) hnesting hdigits
  | object members, level, hnesting, hdigits => by
    have hdepth : level + (object members).depth = level + 1 + depthOfMembers members := by
      rw [depth]
      omega
    rw [hdepth] at hnesting
    rw [overrun?, Limits.allowNesting_of_le hnesting (Nat.le_add_right _ _)]
    exact overrunOfMembers?_eq_none members (level + 1) hnesting hdigits

theorem overrunOfItems?_eq_none : (items : List Json) → (level : Nat) →
    limits.allowNesting (level + depthOfItems items) = true →
    limits.allowDigits (integerLengthOfItems items) = true →
    overrunOfItems? limits level items = none
  | [], _, _, _ => rfl
  | item :: items, level, hnesting, hdigits => by
    rw [depthOfItems] at hnesting
    rw [integerLengthOfItems] at hdigits
    have hitem := overrun?_eq_none item level (Limits.allowNesting_of_le hnesting (by omega))
      (Limits.allowDigits_of_le hdigits (le_max_left _ _))
    have hitems := overrunOfItems?_eq_none items level
      (Limits.allowNesting_of_le hnesting (by omega))
      (Limits.allowDigits_of_le hdigits (le_max_right _ _))
    rw [overrunOfItems?, hitem, hitems]
    rfl

theorem overrunOfMembers?_eq_none : (members : List (JoinedText × Json)) → (level : Nat) →
    limits.allowNesting (level + depthOfMembers members) = true →
    limits.allowDigits (integerLengthOfMembers members) = true →
    overrunOfMembers? limits level members = none
  | [], _, _, _ => rfl
  | (_, value) :: members, level, hnesting, hdigits => by
    rw [depthOfMembers] at hnesting
    rw [integerLengthOfMembers] at hdigits
    have hvalue := overrun?_eq_none value level (Limits.allowNesting_of_le hnesting (by omega))
      (Limits.allowDigits_of_le hdigits (le_max_left _ _))
    have hmembers := overrunOfMembers?_eq_none members level
      (Limits.allowNesting_of_le hnesting (by omega))
      (Limits.allowDigits_of_le hdigits (le_max_right _ _))
    rw [overrunOfMembers?, hvalue, hmembers]
    rfl

end

/-! ### Reading within limits and without -/

/-- What is read within limits is what is read without any, unless it is broken off. Without limits
nothing is. -/
structure Follows {α : Type} (limited full : Except Refusal α) : Prop where
  full_ne : ∀ o, full ≠ .error (.overrun o)
  eq_or : limited = full ∨ ∃ o, limited = .error (.overrun o)

namespace Follows

variable {α β : Type}

theorem ok (a : α) : Follows (.ok a) (.ok a) := ⟨nofun, .inl rfl⟩

theorem flaw (f : Flaw) (rest : List Char) :
    Follows (.error (.flaw f rest) : Except Refusal α) (.error (.flaw f rest)) := ⟨nofun, .inl rfl⟩

theorem admitted (overrun : Option Overrun) (found : α) :
    Follows (Json.admitted overrun found) (.ok found) := by
  refine ⟨nofun, ?_⟩
  cases overrun with
  | none => exact .inl rfl
  | some o => exact .inr ⟨o, rfl⟩

theorem bind {x y : Except Refusal α} {f g : α → Except Refusal β} (hxy : Follows x y)
    (hfg : ∀ a, Follows (f a) (g a)) : Follows (x >>= f) (y >>= g) := by
  constructor
  · intro o h
    cases y with
    | error e =>
      cases h
      exact hxy.full_ne o rfl
    | ok a => exact (hfg a).full_ne o h
  · rcases hxy.eq_or with rfl | ⟨o, rfl⟩
    · cases x with
      | error e => exact .inl rfl
      | ok a => exact (hfg a).eq_or
    · exact .inr ⟨o, rfl⟩

theorem map {x y : Except Refusal α} (f : α → β) (hxy : Follows x y) :
    Follows (x.map f) (y.map f) := by
  have hbind (z : Except Refusal α) : z.map f = z >>= fun a => .ok (f a) := by cases z <;> rfl
  rw [hbind, hbind]
  exact hxy.bind fun a => .ok (f a)

/-- What is not limited, as long as limits allow to go on. -/
theorem ite {b : Bool} {limited full : Except Refusal α} {o : Overrun} (h : Follows limited full) :
    Follows (if b then limited else .error (.overrun o)) full := by
  cases b with
  | true => exact h
  | false => exact ⟨h.full_ne, .inr ⟨o, rfl⟩⟩

end Follows

theorem follows_readText (start cs : List Char) :
    Follows (readText start cs) (readText start cs) := by
  have hpieces : Follows (pieces start cs) (pieces start cs) := by
    fun_induction pieces start cs with
    | case1 | case3 | case5 | case6 | case8 | case9 => exact .flaw _ _
    | case2 => exact .ok _
    | case4 | case7 | case10 => exact .map _ ‹_›
  exact hpieces.map _

theorem follows_readPlain (limits : Limits) (level : Nat) (cs : List Char) :
    Follows (readPlain limits level cs) (readPlain .unlimited level cs) := by
  unfold readPlain
  split
  case h_7 | h_8 =>
    generalize unsigned? _ _ = number
    cases number with
    | none => exact .flaw _ _
    | some found =>
      simp only [overrun?_unlimited]
      exact .admitted _ found
  all_goals exact .ok _

/-- With as much fuel, all that is read follows what is read without limits. -/
structure ReadsAlong (limits : Limits) (fuel : Nat) : Prop where
  value (level : Nat) (cs : List Char) :
    Follows (readValue limits level fuel cs) (readValue .unlimited level fuel cs)
  items (level : Nat) (cs : List Char) :
    Follows (readItems limits level fuel cs) (readItems .unlimited level fuel cs)
  members (level : Nat) (cs : List Char) :
    Follows (readMembers limits level fuel cs) (readMembers .unlimited level fuel cs)

namespace ReadsAlong

variable {fuel : Nat}

theorem value_succ (h : ReadsAlong limits fuel) (level : Nat) (cs : List Char) :
    Follows (readValue limits level (fuel + 1) cs) (readValue .unlimited level (fuel + 1) cs) := by
  unfold readValue
  split
  · exact (follows_readText _ _).bind fun _ => .ok _
  · rw [Limits.unlimited_allowNesting, if_pos rfl]
    refine .ite ?_
    split
    · exact .ok _
    · exact (h.items _ _).bind fun _ => .ok _
  · rw [Limits.unlimited_allowNesting, if_pos rfl]
    refine .ite ?_
    split
    · exact .ok _
    · exact (h.members _ _).bind fun _ => .ok _
  · exact follows_readPlain limits level _

theorem items_succ (h : ReadsAlong limits fuel) (level : Nat) (cs : List Char) :
    Follows (readItems limits level (fuel + 1) cs) (readItems .unlimited level (fuel + 1) cs) := by
  unfold readItems
  refine (h.value level cs).bind fun found => ?_
  obtain ⟨item, rest⟩ := found
  dsimp only
  split
  · exact .ok _
  · exact (h.items _ _).bind fun _ => .ok _
  · exact .flaw _ _

theorem members_succ (h : ReadsAlong limits fuel) (level : Nat) (cs : List Char) :
    Follows (readMembers limits level (fuel + 1) cs)
      (readMembers .unlimited level (fuel + 1) cs) := by
  unfold readMembers
  split
  case h_2 => exact .flaw _ _
  refine (follows_readText _ _).bind fun found => ?_
  obtain ⟨name, afterName⟩ := found
  dsimp only
  split
  case h_2 => exact .flaw _ _
  refine (h.value _ _).bind fun found => ?_
  obtain ⟨value, rest⟩ := found
  dsimp only
  split
  · exact .ok _
  · exact (h.members _ _).bind fun _ => .ok _
  · exact .flaw _ _

end ReadsAlong

theorem readsAlong (limits : Limits) : (fuel : Nat) → ReadsAlong limits fuel
  | 0 => ⟨fun _ _ => .flaw _ _, fun _ _ => .flaw _ _, fun _ _ => .flaw _ _⟩
  | fuel + 1 =>
    have h := readsAlong limits fuel
    ⟨h.value_succ, h.items_succ, h.members_succ⟩

theorem follows_readDocument (limits : Limits) (cs : List Char) :
    Follows (readDocument limits cs) (readDocument .unlimited cs) := by
  unfold readDocument
  split
  · exact .flaw _ _
  · refine ((readsAlong limits _).value _ _).bind fun found => ?_
    obtain ⟨value, rest⟩ := found
    dsimp only
    split
    · exact .ok _
    · exact .flaw _ _

variable {text : String}

theorem read_eq (limits : Limits) (text : String) : read limits text =
    (readDocument limits text.toList).mapError (Refusal.inText text.toList) := rfl

/-- Without limits no reading is broken off. -/
theorem read_unlimited_ne (o : Overrun) : read .unlimited text ≠ .error (.overrun o) := by
  have hne := (follows_readDocument .unlimited text.toList).full_ne
  rw [read_eq]
  cases hfound : readDocument .unlimited text.toList with
  | ok j => nofun
  | error refusal =>
    cases refusal with
    | flaw f rest => nofun
    | overrun o' => exact absurd hfound (hne o')

/-- Within limits a text is read as without any, or its reading is broken off. -/
theorem read_eq_or (limits : Limits) (text : String) :
    read limits text = read .unlimited text ∨ ∃ o, read limits text = .error (.overrun o) := by
  rcases (follows_readDocument limits text.toList).eq_or with heq | ⟨o, ho⟩
  · exact .inl (by rw [read_eq, heq, read_eq])
  · exact .inr ⟨o, by rw [read_eq, ho]; rfl⟩

end Json

end PropValidators
