import Tunables.Proofs.Parameter

/-!
# What is accepted, and what is blamed

A declaration is accepted exactly if each value that it gives fits its kind, and a string has no
bounds.  Then the parameter holds each value as it was given, and where none was given the value
that its kind has there.  A declaration that is refused is refused for the bound of a string, or
else for the first value that does not fit.

* `Kind.Fits`, `Kind.Takes`: which values a kind has room for, and what becomes of them.
* `Answers`: what comes of a single field; `payload_eq_ok_iff` and `payload_eq_error_iff`: what
  comes of all of them.
* `accept_eq_iff`: what comes of a declaration.
-/

namespace Tunables

/-- The order in which the fields of a declaration are looked at. -/
def Field.rank : Field → Nat
  | .default => 0
  | .min => 1
  | .max => 2

theorem fitsInt_zero : FitsInt 0 := by
  decide

theorem fitsInt_intMin : FitsInt intMin := by
  decide

theorem fitsInt_intMax : FitsInt intMax := by
  decide

namespace Kind

/-- The values that a kind has room for. -/
def Fits : Kind → Value → Prop
  | .str, value => ∃ text, value = .text text
  | .bool, value => ∃ truth, value = .bool truth
  | .int, value => ∃ n, value = .int n ∧ FitsInt n
  | .double, value => (∃ n, value = .int n) ∨ ∃ x, value = .double x ∧ x.isNaN = false

/-- What becomes of a value: it is kept, and only an integer that is given for a floating-point
number is converted. -/
inductive Takes : Kind → Value → Literal → Prop
  | text (text : String) : Takes .str (.text text) (.text text)
  | bool (truth : Bool) : Takes .bool (.bool truth) (.bool truth)
  | int (n : MachineInt) : Takes .int (.int n) (.int n)
  | double (x : Binary64) (h : x.isNaN = false) : Takes .double (.double x) (.double x)
  | integral (n : Int) : Takes .double (.int n) (.double (.ofInt n))

/-- What stands in a field that was left out. -/
def absent : Kind → Field → Literal
  | .str, _ => .text ""
  | .bool, .default => .bool false
  | .bool, .min => .bool false
  | .bool, .max => .bool true
  | .int, .default => .int ⟨0, fitsInt_zero⟩
  | .int, .min => .int ⟨intMin, fitsInt_intMin⟩
  | .int, .max => .int ⟨intMax, fitsInt_intMax⟩
  | .double, .default => .double .zero
  | .double, .min => .double .negInfinity
  | .double, .max => .double .infinity

theorem Takes.fits {kind : Kind} {value : Value} {literal : Literal}
    (h : kind.Takes value literal) : kind.Fits value := by
  cases h with
  | text text => exact ⟨text, rfl⟩
  | bool truth => exact ⟨truth, rfl⟩
  | int n => exact ⟨n, rfl, n.property⟩
  | double x hnumber => exact Or.inr ⟨x, rfl, hnumber⟩
  | integral n => exact Or.inl ⟨n, rfl⟩

end Kind

/-- The value that a payload has in a field. -/
def Payload.value (payload : Payload) : Field → Literal
  | .default => payload.default
  | .min => payload.min
  | .max => payload.max

/-- The value that a parameter has in a field. -/
def Parameter.value (parameter : Parameter) (field : Field) : Literal :=
  parameter.payload.value field

namespace Declaration

/-- A string is declared with a bound. -/
def HasTextBound (declaration : Declaration) : Prop :=
  declaration.kind = .str ∧ (declaration.min ≠ none ∨ declaration.max ≠ none)

/-- What is given in a field fits the kind, if anything is given there. -/
def Suits (declaration : Declaration) (field : Field) : Prop :=
  ∀ value, declaration.value field = some value → declaration.kind.Fits value

/-- Every value that is given fits the kind, and a string has no bounds. -/
structure IsFitting (declaration : Declaration) : Prop where
  unbounded : ¬ declaration.HasTextBound
  suits : ∀ field, declaration.Suits field

/-- A literal stands for what is given in a field, or for what was left out there. -/
def Settles (declaration : Declaration) (field : Field) (literal : Literal) : Prop :=
  match declaration.value field with
  | some value => declaration.kind.Takes value literal
  | none => literal = declaration.kind.absent field

/-- The fault of a value that does not fit: an integer that is given for an `int` is out of range,
and every other value is of the wrong type. -/
def fault (declaration : Declaration) (field : Field) : Value → DeclarationFault
  | .int n =>
      if declaration.kind = .int then .outOfRange declaration.name field n
      else .type declaration.name declaration.kind field (.int n)
  | value => .type declaration.name declaration.kind field value

/-- The value in a field does not fit, and this is the fault. -/
def Objects (declaration : Declaration) (field : Field) (fault : DeclarationFault) : Prop :=
  ∃ value, declaration.value field = some value ∧ ¬ declaration.kind.Fits value ∧
    fault = declaration.fault field value

/-- The fault for which a declaration is refused: the bound of a string comes before everything
else, and the default before the minimum before the maximum. -/
inductive Blames (declaration : Declaration) : DeclarationFault → Prop
  | bound (h : declaration.HasTextBound) : Blames declaration (.boundsOnText declaration.name)
  | value {fault : DeclarationFault} (field : Field) (hbound : ¬ declaration.HasTextBound)
      (hobjects : declaration.Objects field fault)
      (hfirst : ∀ earlier, Field.rank earlier < Field.rank field → declaration.Suits earlier) :
      Blames declaration fault

/-- A parameter holds what was declared. -/
structure Yields (declaration : Declaration) (location : Location) (parameter : Parameter) :
    Prop where
  name : parameter.name = declaration.name
  kind : parameter.kind = declaration.kind
  level : parameter.level = declaration.level
  description : parameter.description = declaration.description
  editMethod : parameter.editMethod = declaration.editMethod
  location : parameter.location = location
  values : ∀ field, declaration.Settles field (parameter.value field)

end Declaration

namespace Value

variable {mismatch fault : DeclarationFault} {outOfRange : Int → DeclarationFault} {value : Value}

theorem asText_eq_ok_iff {text : String} :
    value.asText mismatch = .ok text ↔ Kind.str.Takes value (.text text) := by
  constructor
  · intro h
    cases value with
    | text given =>
        cases h
        exact .text text
    | bool _ | int _ | double _ => cases h
  · rintro ⟨⟩
    rfl

theorem asBool_eq_ok_iff {truth : Bool} :
    value.asBool mismatch = .ok truth ↔ Kind.bool.Takes value (.bool truth) := by
  constructor
  · intro h
    cases value with
    | bool given =>
        cases h
        exact .bool truth
    | text _ | int _ | double _ => cases h
  · rintro ⟨⟩
    rfl

theorem asInt_eq_ok_iff {n : MachineInt} :
    value.asInt mismatch outOfRange = .ok n ↔ Kind.int.Takes value (.int n) := by
  constructor
  · intro h
    cases value with
    | int given =>
        rw [asInt] at h
        split at h
        · next hfits =>
          cases h
          exact .int ⟨given, hfits⟩
        · cases h
    | text _ | bool _ | double _ => cases h
  · rintro ⟨⟩
    rw [asInt, dif_pos n.property]

theorem asDouble_eq_ok_iff {x : Binary64} :
    value.asDouble mismatch = .ok x ↔ Kind.double.Takes value (.double x) := by
  constructor
  · intro h
    cases value with
    | int given =>
        cases h
        exact .integral given
    | double given =>
        rw [asDouble] at h
        split at h
        · cases h
        · next hnumber =>
          cases h
          exact .double x (Bool.eq_false_iff.mpr hnumber)
    | text _ | bool _ => cases h
  · intro h
    cases h with
    | integral n => rfl
    | double _ hnumber => rw [asDouble, hnumber]; rfl

theorem asText_eq_error_iff :
    value.asText mismatch = .error fault ↔ ¬ Kind.str.Fits value ∧ fault = mismatch := by
  cases value <;> simp [asText, Kind.Fits, @eq_comm _ mismatch fault]

theorem asBool_eq_error_iff :
    value.asBool mismatch = .error fault ↔ ¬ Kind.bool.Fits value ∧ fault = mismatch := by
  cases value <;> simp [asBool, Kind.Fits, @eq_comm _ mismatch fault]

theorem asDouble_eq_error_iff :
    value.asDouble mismatch = .error fault ↔ ¬ Kind.double.Fits value ∧ fault = mismatch := by
  cases value with
  | double x => cases hx : x.isNaN <;> simp [asDouble, Kind.Fits, hx, @eq_comm _ mismatch fault]
  | text _ | bool _ | int _ => simp [asDouble, Kind.Fits, @eq_comm _ mismatch fault]

/-- An integer is either in range or reported to be out of range. -/
theorem asInt_eq_error_iff {name : String} {field : Field} {kind : Kind} :
    value.asInt (.type name kind field value) (.outOfRange name field) = .error fault ↔
      ¬ Kind.int.Fits value ∧ fault = match value with
        | .int n => .outOfRange name field n
        | _ => .type name kind field value := by
  cases value with
  | int n => by_cases hn : FitsInt n <;> simp [asInt, Kind.Fits, hn, eq_comm]
  | text _ | bool _ | double _ => simp [asInt, Kind.Fits, eq_comm]

end Value

namespace Declaration

variable {declaration : Declaration} {field : Field} {α : Type}

/-- The outcome of reading a field: what stands there, or the fault of what is given there. -/
structure Answers (declaration : Declaration) (field : Field) (literal : α → Literal)
    (result : Except DeclarationFault α) : Prop where
  ok_iff : ∀ x, result = .ok x ↔ declaration.Settles field (literal x)
  error_iff : ∀ fault, result = .error fault ↔ declaration.Objects field fault

/-- A field is read as its kind takes it if a single value is. -/
theorem answers_read {literal : α → Literal} {absent : α}
    {as : DeclarationFault → Value → Except DeclarationFault α}
    (hinjective : Function.Injective literal)
    (habsent : declaration.kind.absent field = literal absent)
    (hok : ∀ value x, as (.type declaration.name declaration.kind field value) value = .ok x ↔
      declaration.kind.Takes value (literal x))
    (herror : ∀ value fault, as (.type declaration.name declaration.kind field value) value =
      .error fault ↔
      ¬ declaration.kind.Fits value ∧ fault = declaration.fault field value) :
    declaration.Answers field literal (declaration.read field absent as) := by
  unfold Declaration.read
  cases hvalue : declaration.value field with
  | none =>
      refine ⟨fun x => ?_, fun fault => ?_⟩
      · simp only [Settles, hvalue, habsent, hinjective.eq_iff, Except.ok.injEq]
        exact eq_comm
      · simp [Objects, hvalue]
  | some value =>
      refine ⟨fun x => ?_, fun fault => ?_⟩
      · simp only [Settles, hvalue, hok]
      · simp [Objects, hvalue, herror]

theorem Answers.exists_ok_iff {literal : α → Literal} {result : Except DeclarationFault α}
    (h : declaration.Answers field literal result) :
    (∃ x, result = .ok x) ↔ declaration.Suits field := by
  constructor
  · rintro ⟨x, hx⟩ value hvalue
    refine Classical.byContradiction fun hunfit => ?_
    have herror := (h.error_iff _).mpr ⟨value, hvalue, hunfit, rfl⟩
    rw [hx] at herror
    cases herror
  · intro hsuits
    cases hresult : result with
    | ok x => exact ⟨x, rfl⟩
    | error fault =>
        obtain ⟨value, hvalue, hunfit, _⟩ := (h.error_iff fault).mp hresult
        exact absurd (hsuits value hvalue) hunfit

section Kinds

theorem answers_text (hkind : declaration.kind = .str) :
    declaration.Answers .default .text (declaration.read .default "" Value.asText) := by
  refine answers_read (fun _ _ h => Literal.text.inj h) (by rw [hkind]; rfl) ?_ ?_
  · intro value text
    rw [hkind]
    exact Value.asText_eq_ok_iff
  · intro value fault
    rw [hkind, Value.asText_eq_error_iff]
    cases value <;> simp [Declaration.fault, hkind]

theorem answers_bool (hkind : declaration.kind = .bool) {absent : Bool}
    (habsent : Kind.bool.absent field = .bool absent) :
    declaration.Answers field .bool (declaration.read field absent Value.asBool) := by
  refine answers_read (fun _ _ h => Literal.bool.inj h) (by rw [hkind, habsent]) ?_ ?_
  · intro value truth
    rw [hkind]
    exact Value.asBool_eq_ok_iff
  · intro value fault
    rw [hkind, Value.asBool_eq_error_iff]
    cases value <;> simp [Declaration.fault, hkind]

theorem answers_int (hkind : declaration.kind = .int) {absent : MachineInt}
    (habsent : Kind.int.absent field = .int absent) :
    declaration.Answers field .int (declaration.read field absent fun mismatch =>
      Value.asInt mismatch (.outOfRange declaration.name field)) := by
  refine answers_read (fun _ _ h => Literal.int.inj h) (by rw [hkind, habsent]) ?_ ?_
  · intro value n
    rw [hkind]
    exact Value.asInt_eq_ok_iff
  · intro value fault
    rw [Value.asInt_eq_error_iff, hkind]
    cases value <;> simp [Declaration.fault, hkind]

theorem answers_double (hkind : declaration.kind = .double) {absent : Binary64}
    (habsent : Kind.double.absent field = .double absent) :
    declaration.Answers field .double (declaration.read field absent Value.asDouble) := by
  refine answers_read (fun _ _ h => Literal.double.inj h) (by rw [hkind, habsent]) ?_ ?_
  · intro value x
    rw [hkind]
    exact Value.asDouble_eq_ok_iff
  · intro value fault
    rw [hkind, Value.asDouble_eq_error_iff]
    cases value <;> simp [Declaration.fault, hkind]

end Kinds

section Fields

variable {literal : α → Literal} {make : α → α → α → Payload}
  {first second third : Except DeclarationFault α} {payload : Payload} {fault : DeclarationFault}

/-- The payload of a declaration is made of its three fields, which are read one after the other. -/
structure IsRead (declaration : Declaration) (literal : α → Literal) (make : α → α → α → Payload)
    (first second third : Except DeclarationFault α) : Prop where
  payload_eq : declaration.payload = do
    let default ← first
    let min ← second
    let max ← third
    return make default min max
  default : declaration.Answers .default literal first
  min : declaration.Answers .min literal second
  max : declaration.Answers .max literal third
  unbounded : ¬ declaration.HasTextBound
  kind_eq_iff : ∀ payload, payload.kind = declaration.kind ↔ ∃ a b c, payload = make a b c
  values : ∀ a b c, (make a b c).default = literal a ∧ (make a b c).min = literal b ∧
    (make a b c).max = literal c

/-- Whatever is not a string is read field by field. -/
theorem exists_isRead (h : declaration.kind ≠ .str) :
    ∃ (α : Type) (literal : α → Literal) (make : α → α → α → Payload)
      (first second third : Except DeclarationFault α),
      declaration.IsRead literal make first second third := by
  have hunbounded : ¬ declaration.HasTextBound := fun hbound => h hbound.1
  cases hkind : declaration.kind with
  | str => exact absurd hkind h
  | bool =>
      refine ⟨Bool, .bool, .bool, _, _, _, ?_, answers_bool hkind rfl, answers_bool hkind rfl,
        answers_bool hkind rfl, hunbounded, fun payload => ?_, fun _ _ _ => ⟨rfl, rfl, rfl⟩⟩
      · simp only [Declaration.payload, hkind]
      · rw [hkind]
        cases payload <;> simp [Payload.kind]
  | int =>
      refine ⟨MachineInt, .int, .int, _, _, _, ?_, answers_int hkind rfl, answers_int hkind rfl,
        answers_int hkind rfl, hunbounded, fun payload => ?_, fun _ _ _ => ⟨rfl, rfl, rfl⟩⟩
      · simp only [Declaration.payload, hkind]
      · rw [hkind]
        cases payload <;> simp [Payload.kind]
  | double =>
      refine ⟨Binary64, .double, .double, _, _, _, ?_, answers_double hkind rfl,
        answers_double hkind rfl, answers_double hkind rfl, hunbounded, fun payload => ?_,
        fun _ _ _ => ⟨rfl, rfl, rfl⟩⟩
      · simp only [Declaration.payload, hkind]
      · rw [hkind]
        cases payload <;> simp [Payload.kind]

theorem forall_settles_iff : (∀ field, declaration.Settles field (payload.value field)) ↔
    declaration.Settles .default payload.default ∧ declaration.Settles .min payload.min ∧
      declaration.Settles .max payload.max :=
  ⟨fun h => ⟨h .default, h .min, h .max⟩,
    fun ⟨hdefault, hmin, hmax⟩ field => by cases field <;> assumption⟩

/-- Three fields are read if each of them is. -/
theorem IsRead.payload_eq_ok_iff (h : declaration.IsRead literal make first second third) :
    declaration.payload = .ok payload ↔ payload.kind = declaration.kind ∧
      ∀ field, declaration.Settles field (payload.value field) := by
  rw [h.payload_eq, h.kind_eq_iff, forall_settles_iff]
  simp only [except_bind_eq_ok_iff, h.default.ok_iff, h.min.ok_iff, h.max.ok_iff]
  constructor
  · rintro ⟨default, hdefault, min, hmin, max, hmax, ⟨⟩⟩
    obtain ⟨hdefault', hmin', hmax'⟩ := h.values default min max
    rw [hdefault', hmin', hmax']
    exact ⟨⟨default, min, max, rfl⟩, hdefault, hmin, hmax⟩
  · rintro ⟨⟨default, min, max, rfl⟩, hdefault, hmin, hmax⟩
    obtain ⟨hdefault', hmin', hmax'⟩ := h.values default min max
    rw [hdefault'] at hdefault
    rw [hmin'] at hmin
    rw [hmax'] at hmax
    exact ⟨default, hdefault, min, hmin, max, hmax, rfl⟩

/-- The fault of three fields is that of the first one which has a fault. -/
theorem IsRead.payload_eq_error_iff (h : declaration.IsRead literal make first second third) :
    declaration.payload = .error fault ↔
      ∃ field, declaration.Objects field fault ∧
        ∀ earlier, Field.rank earlier < Field.rank field → declaration.Suits earlier := by
  have hreturn : ∀ payload, ¬ (pure payload : Except DeclarationFault Payload) = .error fault := by
    rintro payload ⟨⟩
  rw [h.payload_eq]
  simp only [except_bind_eq_error_iff, h.default.error_iff, h.min.error_iff, h.max.error_iff,
    hreturn, and_false, exists_false, or_false]
  constructor
  · rintro (hobjects | ⟨default, hdefault, hobjects | ⟨min, hmin, hobjects⟩⟩)
    · exact ⟨.default, hobjects, fun earlier hrank => absurd hrank (Nat.not_lt_zero _)⟩
    · have hsuits := h.default.exists_ok_iff.mp ⟨default, hdefault⟩
      refine ⟨.min, hobjects, fun earlier hrank => ?_⟩
      cases earlier with
      | default => exact hsuits
      | min | max => simp [Field.rank] at hrank
    · have hsuits := h.default.exists_ok_iff.mp ⟨default, hdefault⟩
      have hsuits' := h.min.exists_ok_iff.mp ⟨min, hmin⟩
      refine ⟨.max, hobjects, fun earlier hrank => ?_⟩
      cases earlier with
      | default => exact hsuits
      | min => exact hsuits'
      | max => simp [Field.rank] at hrank
  · rintro ⟨field, hobjects, hearlier⟩
    cases field with
    | default =>
        exact Or.inl hobjects
    | min =>
        obtain ⟨default, hdefault⟩ := h.default.exists_ok_iff.mpr (hearlier .default (by decide))
        exact Or.inr ⟨default, hdefault, Or.inl hobjects⟩
    | max =>
        obtain ⟨default, hdefault⟩ := h.default.exists_ok_iff.mpr (hearlier .default (by decide))
        obtain ⟨min, hmin⟩ := h.min.exists_ok_iff.mpr (hearlier .min (by decide))
        exact Or.inr ⟨default, hdefault, Or.inr ⟨min, hmin, hobjects⟩⟩

end Fields

section Text

/-- A string has no bounds, and then its payload is its default. -/
theorem payload_of_str (hkind : declaration.kind = .str) :
    declaration.HasTextBound ∧ declaration.payload = .error (.boundsOnText declaration.name) ∨
      ¬ declaration.HasTextBound ∧
        declaration.payload = declaration.read .default "" Value.asText >>= fun default =>
          pure (.str default) := by
  have hbounds : (declaration.min.isSome || declaration.max.isSome) = true ↔
      declaration.HasTextBound := by
    simp [HasTextBound, hkind, Option.isSome_iff_ne_none]
  simp only [Declaration.payload, hkind]
  by_cases hbound : declaration.HasTextBound
  · rw [if_pos (hbounds.mpr hbound)]
    exact Or.inl ⟨hbound, rfl⟩
  · rw [if_neg (mt hbounds.mp hbound)]
    exact Or.inr ⟨hbound, rfl⟩

theorem value_of_not_hasTextBound (hkind : declaration.kind = .str)
    (hbound : ¬ declaration.HasTextBound) (hfield : field ≠ .default) :
    declaration.value field = none := by
  simp only [HasTextBound, hkind, true_and, not_or, not_not] at hbound
  cases field with
  | default => exact absurd rfl hfield
  | min => exact hbound.1
  | max => exact hbound.2

end Text

section Payloads

variable {payload : Payload} {fault : DeclarationFault}

/-- The values of a declaration are those of its fields, unless a string has a bound. -/
theorem payload_eq_ok_iff :
    declaration.payload = .ok payload ↔
      ¬ declaration.HasTextBound ∧ payload.kind = declaration.kind ∧
      ∀ field, declaration.Settles field (payload.value field) := by
  by_cases hkind : declaration.kind = .str
  · rcases payload_of_str hkind with ⟨hbound, hpayload⟩ | ⟨hbound, hpayload⟩
    · simp [hpayload, hbound]
    · have hsettles : ∀ field, field ≠ .default → declaration.Settles field (.text "") :=
        fun field hfield => by
          rw [Settles, value_of_not_hasTextBound hkind hbound hfield, hkind]
          rfl
      rw [hpayload, except_bind_eq_ok_iff, forall_settles_iff, hkind]
      simp only [(answers_text hkind).ok_iff]
      constructor
      · rintro ⟨default, hdefault, ⟨⟩⟩
        exact ⟨hbound, rfl, hdefault, hsettles .min (by decide), hsettles .max (by decide)⟩
      · rintro ⟨_, hpayload, hdefault, _⟩
        cases payload with
        | str default => exact ⟨default, hdefault, rfl⟩
        | bool _ _ _ | int _ _ _ | double _ _ _ => cases hpayload
  · obtain ⟨_, _, _, _, _, _, hread⟩ := exists_isRead hkind
    rw [hread.payload_eq_ok_iff, and_iff_right hread.unbounded]

/-- The fault of a declaration is the bound of a string, or that of the first value that does not
fit. -/
theorem payload_eq_error_iff : declaration.payload = .error fault ↔ declaration.Blames fault := by
  have hblames : ¬ declaration.HasTextBound →
      (declaration.Blames fault ↔ ∃ field, declaration.Objects field fault ∧
      ∀ earlier, Field.rank earlier < Field.rank field → declaration.Suits earlier) := by
    intro hbound
    constructor
    · rintro (h | ⟨field, _, hobjects, hfirst⟩)
      · exact absurd h hbound
      · exact ⟨field, hobjects, hfirst⟩
    · rintro ⟨field, hobjects, hfirst⟩
      exact .value field hbound hobjects hfirst
  by_cases hkind : declaration.kind = .str
  · rcases payload_of_str hkind with ⟨hbound, hpayload⟩ | ⟨hbound, hpayload⟩
    · rw [hpayload]
      constructor
      · rintro ⟨⟩
        exact .bound hbound
      · rintro (_ | ⟨_, hunbounded⟩)
        · rfl
        · exact absurd hbound hunbounded
    · have hreturn : ∀ default, ¬ (pure (.str default) : Except DeclarationFault Payload) =
          .error fault := by
        rintro default ⟨⟩
      rw [hpayload, except_bind_eq_error_iff, hblames hbound]
      simp only [(answers_text hkind).error_iff, hreturn, and_false, exists_false, or_false]
      constructor
      · intro hobjects
        exact ⟨.default, hobjects, fun earlier hrank => absurd hrank (Nat.not_lt_zero _)⟩
      · rintro ⟨field, ⟨value, hvalue, hunfit, hfault⟩, _⟩
        have hfield : field = .default := by
          refine Decidable.byContradiction fun hfield => ?_
          rw [value_of_not_hasTextBound hkind hbound hfield] at hvalue
          cases hvalue
        rw [← hfield]
        exact ⟨value, hvalue, hunfit, hfault⟩
  · obtain ⟨_, _, _, _, _, _, hread⟩ := exists_isRead hkind
    rw [hread.payload_eq_error_iff, hblames hread.unbounded]

end Payloads

end Declaration

namespace Parameter

variable {declaration : Declaration} {location : Location}

theorem accept_eq_ok_iff {parameter : Parameter} :
    accept declaration location = .ok parameter ↔
      ¬ declaration.HasTextBound ∧ declaration.Yields location parameter := by
  rw [accept, except_bind_eq_ok_iff]
  constructor
  · rintro ⟨payload, hpayload, ⟨⟩⟩
    obtain ⟨hbound, hkind, hvalues⟩ := Declaration.payload_eq_ok_iff.mp hpayload
    exact ⟨hbound, rfl, hkind, rfl, rfl, rfl, rfl, hvalues⟩
  · rintro ⟨hbound, h⟩
    obtain ⟨name, payload, level, description, editMethod, place⟩ := parameter
    obtain ⟨rfl, hkind, rfl, rfl, rfl, rfl, hvalues⟩ := h
    exact ⟨payload, Declaration.payload_eq_ok_iff.mpr ⟨hbound, hkind, hvalues⟩, rfl⟩

theorem accept_eq_error_iff {fault : DeclarationFault} :
    accept declaration location = .error fault ↔ declaration.Blames fault := by
  rw [accept, except_bind_eq_error_iff, Declaration.payload_eq_error_iff, or_iff_left]
  rintro ⟨payload, _, ⟨⟩⟩

theorem suits_of_settles {field : Field} {literal : Literal}
    (h : declaration.Settles field literal) :
    declaration.Suits field := by
  intro value hvalue
  rw [Declaration.Settles, hvalue] at h
  exact h.fits

/-- A declaration is accepted exactly if its values fit its kind, as a parameter that holds them,
and is refused for the first value that does not fit. -/
theorem accept_eq_iff (declaration : Declaration) (location : Location) :
    ((∃ parameter, accept declaration location = .ok parameter) ↔ declaration.IsFitting) ∧
      (∀ parameter, accept declaration location = .ok parameter ↔
        declaration.IsFitting ∧ declaration.Yields location parameter) ∧
      (∀ fault, accept declaration location = .error fault ↔ declaration.Blames fault) ∧
      ∀ parameter, accept declaration location = .ok parameter →
        ∀ field, (parameter.value field).isNaN = false := by
  have hok : ∀ parameter, accept declaration location = .ok parameter ↔
      declaration.IsFitting ∧ declaration.Yields location parameter := by
    intro parameter
    rw [accept_eq_ok_iff]
    constructor
    · rintro ⟨hbound, hyields⟩
      exact ⟨⟨hbound, fun field => suits_of_settles (hyields.values field)⟩, hyields⟩
    · rintro ⟨hfitting, hyields⟩
      exact ⟨hfitting.unbounded, hyields⟩
  refine ⟨⟨?_, ?_⟩, hok, fun fault => accept_eq_error_iff, ?_⟩
  · rintro ⟨parameter, hparameter⟩
    exact ((hok parameter).mp hparameter).1
  · intro hfitting
    cases hresult : accept declaration location with
    | ok parameter => exact ⟨parameter, rfl⟩
    | error fault =>
        rcases accept_eq_error_iff.mp hresult with
          hbound | ⟨field, _, ⟨value, hvalue, hunfit, _⟩, _⟩
        · exact absurd hbound hfitting.unbounded
        · exact absurd (hfitting.suits field value hvalue) hunfit
  · intro parameter hparameter field
    obtain ⟨hdefault, hmin, hmax⟩ := IsAccepted.isNaN_eq_false ⟨declaration, location, hparameter⟩
    cases field with
    | default => exact hdefault
    | min => exact hmin
    | max => exact hmax

/-- The bound of a string is reported even if its default is wrong. -/
example :
    accept ⟨"frame", .str, 0, "", some (.int 0), none, some (.text "z"), ""⟩ ⟨"params.toml", 1⟩ =
      .error (.boundsOnText "frame") := rfl

end Parameter
end Tunables
