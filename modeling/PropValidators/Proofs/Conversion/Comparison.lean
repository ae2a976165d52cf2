import Mathlib.Data.List.Forall2
import PropValidators.Proofs.Conversion.Partition
/-!
Two conversions compared, of types or properties that differ or under settings that do: they are
alike if they skip and look up the same and their values look the same. Conversions of lists and of
single types are alike if those of their parts are.
-/
namespace PropValidators

namespace Traced

/-- Two values with the same trace that look the same in a view. -/
structure Alike {α β : Type} (view : α → β) (x y : Traced α) : Prop where
  value_eq : view x.value = view y.value
  skips_eq : x.skips = y.skips
  lookups_eq : x.lookups = y.lookups

namespace Alike

variable {α β γ δ : Type} {view : α → β} {view' : γ → δ} {x y z : Traced α}

theorem refl (x : Traced α) : x.Alike view x := ⟨rfl, rfl, rfl⟩

theorem symm (h : x.Alike view y) : y.Alike view x :=
  ⟨h.value_eq.symm, h.skips_eq.symm, h.lookups_eq.symm⟩

theorem trans (h : x.Alike view y) (h' : y.Alike view z) : x.Alike view z where
  value_eq := h.value_eq.trans h'.value_eq
  skips_eq := h.skips_eq.trans h'.skips_eq
  lookups_eq := h.lookups_eq.trans h'.lookups_eq

theorem pure {a b : α} (h : view a = view b) : (Pure.pure a : Traced α).Alike view (Pure.pure b) :=
  ⟨h, rfl, rfl⟩

theorem bind {f g : α → Traced γ} (h : x.Alike view y)
    (hfg : ∀ a b, view a = view b → (f a).Alike view' (g b)) :
    (x >>= f).Alike view' (y >>= g) := by
  obtain ⟨hvalue, hskips, hlookups⟩ := h
  have hnext := hfg _ _ hvalue
  constructor
  · exact hnext.value_eq
  · rw [skips_bind, skips_bind, hskips, hnext.skips_eq]
  · rw [lookups_bind, lookups_bind, hlookups, hnext.lookups_eq]

/-- Two options that look the same are both none or both some. -/
theorem bindOption {x y : Traced (Option α)} {f g : Option α → Traced γ}
    (h : x.Alike (Option.map view) y) (hnone : (f none).Alike view' (g none))
    (hsome : ∀ a b, view a = view b → (f (some a)).Alike view' (g (some b))) :
    (x >>= f).Alike view' (y >>= g) := by
  refine h.bind fun a b hab => ?_
  cases a with
  | none =>
    cases b with
    | none => exact hnone
    | some b => cases hab
  | some a =>
    cases b with
    | none => cases hab
    | some b => exact hsome a b (Option.some.inj hab)

theorem eq (h : x.Alike id y) : x = y := by
  obtain ⟨hvalue, hskips, hlookups⟩ := h
  cases x
  cases y
  simp_all

end Alike

end Traced

/-- The entry with another validator under the same key. -/
def Assignment.mapValue (f : Validator → Validator) (a : Assignment) : Assignment :=
  .mk a.key (f a.value)

@[simp] theorem Assignment.mapValue_id : mapValue id = id := by
  funext a
  cases a
  rfl

/-- A view in which a validator made by conversion looks as its parts do. -/
structure Validator.Compositional (view : Validator → Validator) : Prop where
  callOne : ∀ factory v w, view v = view w → view (callOne factory v) = view (callOne factory w)
  oneOfType : ∀ vs ws : List Validator, vs.map view = ws.map view →
    view (callArray "oneOfType" (vs.map .validator)) =
      view (callArray "oneOfType" (ws.map .validator))
  shape : ∀ as bs : List Assignment,
    as.map (Assignment.mapValue view) = bs.map (Assignment.mapValue view) →
      view (call "shape" [.object as]) = view (call "shape" [.object bs])

theorem Validator.compositional_id : Compositional id where
  callOne := by
    rintro factory v w rfl
    rfl
  oneOfType vs ws h := by
    rw [List.map_id, List.map_id] at h
    rw [h]
  shape as bs h := by
    rw [Assignment.mapValue_id, List.map_id, List.map_id] at h
    rw [h]

variable {view : Validator → Validator} {s t : Setting}

/-- Two types whose conversions are alike. -/
def TypeExpr.ConvertAlike (view : Validator → Validator) (s t : Setting) (a b : TypeExpr) : Prop :=
  (convert s a).Alike (Option.map view) (convert t b)

/-- Two properties of one key, with types of one kind whose conversions are alike, and with flags
that make no difference in the view. -/
structure Property.ConvertAlike (view : Validator → Validator) (s t : Setting) (p q : Property) :
    Prop where
  key_eq : p.key = q.key
  type_rel : Option.Rel (fun a b => a.kind = b.kind ∧ a.ConvertAlike view s t b) p.type q.type
  require_eq : ∀ v w, view v = view w → view (v.require p.optional) = view (w.require q.optional)

/-! ### Types by their parts -/

section Types

variable (hview : Validator.Compositional view) (b c : Bool)

theorem alike_convertTypes {as bs : List TypeExpr}
    (h : List.Forall₂ (TypeExpr.ConvertAlike view s t) as bs) :
    (convertTypes s as).Alike (List.map view) (convertTypes t bs) := by
  induction h with
  | nil => exact .refl _
  | cons hhead _ ih =>
    rw [convertTypes, convertTypes]
    refine hhead.bind fun v w hvw => ih.bind fun vs ws hvws => .pure ?_
    have htoList : v.toList.map view = w.toList.map view := by
      cases v <;> cases w <;> simp_all
    rw [List.map_append, List.map_append, htoList, hvws]

include hview in
theorem view_choice {as bs : List TypeExpr} {vs ws : List Validator}
    (hliterals : allLiterals? as = allLiterals? bs) (h : vs.map view = ws.map view) :
    (choice as vs).map view = (choice bs ws).map view := by
  have hempty : vs.isEmpty = ws.isEmpty := by
    rw [← List.isEmpty_map (f := view), h, List.isEmpty_map]
  unfold choice
  rw [hliterals, hempty]
  split
  · rfl
  · rfl
  · split
    · rfl
    · exact congrArg some (hview.oneOfType vs ws h)

include hview in
theorem alike_choice {as bs : List TypeExpr} (hliterals : allLiterals? as = allLiterals? bs)
    (h : List.Forall₂ (TypeExpr.ConvertAlike view s t) as bs) :
    (convertTypes s as >>= fun vs => pure (choice as vs)).Alike (Option.map view)
      (convertTypes t bs >>= fun ws => pure (choice bs ws)) :=
  (alike_convertTypes h).bind fun _ _ hvws => .pure (view_choice hview hliterals hvws)

include hview in
theorem alike_array {a a' : TypeExpr} (h : a.ConvertAlike view s t a') :
    (convertWithin s b (.array a)).Alike (Option.map view) (convertWithin t c (.array a')) := by
  rw [convertWithin, convertWithin]
  refine h.bindOption (.refl _) fun v w hvw => .pure ?_
  exact congrArg some (hview.callOne "arrayOf" v w hvw)

include hview in
theorem alike_indexed {a a' : TypeExpr} (h : a.ConvertAlike view s t a') :
    (convertWithin s b (.object [.index (some a)])).Alike (Option.map view)
      (convertWithin t c (.object [.index (some a')])) := by
  rw [convertWithin, convertWithin]
  refine h.bindOption (.refl _) fun v w hvw => .pure ?_
  exact congrArg some (hview.callOne "objectOf" v w hvw)

end Types

/-! ### Properties -/

namespace Property.ConvertAlike

variable {p q : Property}

theorem alike_convertProperty (h : p.ConvertAlike view s t q) :
    (convertProperty s p).Alike (Option.map (Assignment.mapValue view)) (convertProperty t q) := by
  obtain ⟨key, type, optional⟩ := p
  obtain ⟨key', type', optional'⟩ := q
  obtain ⟨hkey, htype, hrequire⟩ := h
  cases hkey
  cases htype with
  | none => exact .refl _
  | some htype =>
    obtain ⟨hkind, halike⟩ := htype
    rw [convertProperty, convertProperty, hkind]
    refine halike.bindOption (.refl _) fun v w hvw => .pure (congrArg some ?_)
    exact congrArg (Assignment.mk _) (hrequire v w hvw)

theorem omissionOf_eq (h : p.ConvertAlike view s t q) (group : Text) :
    omissionOf s group p = omissionOf t group q := by
  obtain ⟨key, type, optional⟩ := p
  obtain ⟨key', type', optional'⟩ := q
  obtain ⟨hkey, htype, -⟩ := h
  cases hkey
  cases htype with
  | none => rfl
  | some htype =>
    obtain ⟨hkind, halike⟩ := htype
    refine Traced.Alike.eq ?_
    simp only [omissionOf, Property.type, hkind]
    exact halike.bindOption (.refl _) fun _ _ _ => .refl _

end Property.ConvertAlike

theorem alike_convertProperties {ps qs : List Property}
    (h : List.Forall₂ (Property.ConvertAlike view s t) ps qs) :
    (convertProperties s ps).Alike (List.map (Assignment.mapValue view))
      (convertProperties t qs) := by
  induction h with
  | nil => exact .refl _
  | cons hhead _ ih =>
    rw [convertProperties, convertProperties]
    refine hhead.alike_convertProperty.bind fun v w hvw => ih.bind fun vs ws hvws => .pure ?_
    have htoList : v.toList.map (Assignment.mapValue view) =
        w.toList.map (Assignment.mapValue view) := by
      cases v <;> cases w <;> simp_all
    rw [List.map_append, List.map_append, htoList, hvws]

theorem omissionsOf_eq {ps qs : List Property}
    (h : List.Forall₂ (Property.ConvertAlike view s t) ps qs) (group : Text) :
    omissionsOf s group ps = omissionsOf t group qs := by
  induction h with
  | nil => rfl
  | cons hhead _ ih => rw [omissionsOf, omissionsOf, hhead.omissionOf_eq group, ih]

/-- Shapes are alike if their properties are. -/
theorem alike_shape (hview : Validator.Compositional view) (b c : Bool) {ms ns : List Member}
    (hms : IsShape ms) (hns : IsShape ns)
    (h : List.Forall₂ (Property.ConvertAlike view s t) (propertiesOf ms) (propertiesOf ns)) :
    (convertWithin s b (.object ms)).Alike (Option.map view)
      (convertWithin t c (.object ns)) := by
  rw [convertWithin_shape b hms, convertWithin_shape c hns]
  refine (alike_convertProperties h).bind fun as bs hasbs => .pure ?_
  exact congrArg some (hview.shape as bs hasbs)

/-! ### Selections -/

/-- Under every name of a selection two mappings of groups have nothing or properties that convert
alike. -/
def Groups.ConvertAlike (view : Validator → Validator) (s t : Setting) (groups groups' : Groups)
    (names : List Text) : Prop :=
  ∀ name ∈ names, Option.Rel (List.Forall₂ (Property.ConvertAlike view s t))
    (groups.lookup name) (groups'.lookup name)

namespace Groups.ConvertAlike

variable {groups groups' : Groups} {names : List Text}

theorem alike_convertSelection (h : groups.ConvertAlike view s t groups' names) :
    (convertSelection s groups names).Alike (List.map (Assignment.mapValue view))
      (convertSelection t groups' names) := by
  induction names with
  | nil => exact .refl _
  | cons name names ih =>
    rw [ConvertAlike, List.forall_mem_cons] at h
    have hnames := ih h.2
    unfold convertSelection
    generalize groups.lookup name = found at h
    generalize groups'.lookup name = found' at h
    cases h.1 with
    | none =>
      have hskip : (Traced.skip (.undeclared name)).Alike id (Traced.skip (.undeclared name)) :=
        .refl _
      exact hskip.bind fun _ _ _ => hnames
    | some hproperties =>
      refine (alike_convertProperties hproperties).bind fun as bs hab => ?_
      refine hnames.bind fun as' bs' hab' => .pure ?_
      rw [List.map_append, List.map_append, hab, hab']

theorem findOmissions_eq (h : groups.ConvertAlike view s t groups' names) :
    findOmissions s groups names = findOmissions t groups' names := by
  induction names with
  | nil => rfl
  | cons name names ih =>
    rw [ConvertAlike, List.forall_mem_cons] at h
    have hnames := ih h.2
    unfold findOmissions
    generalize groups.lookup name = found at h
    generalize groups'.lookup name = found' at h
    cases h.1 with
    | none => rw [hnames]
    | some hproperties => simp only [omissionsOf_eq hproperties, hnames]

end Groups.ConvertAlike

end PropValidators
