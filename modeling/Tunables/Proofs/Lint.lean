import Mathlib
import Tunables.Lint
import Tunables.Proofs.Manifest.Schema
import Tunables.Proofs.Parameter.Acceptance

/-!
# What the lints find in a manifest

The parameters of a manifest have names that were checked when it was read, and the lint for names
asks for the same.  So the lints find repeated names and empty descriptions, and nothing else.

* `repeats`: the parameters whose name an earlier one has, each with the first one of its name.
* `duplicates_eq_repeats`: these are found in one pass that only keeps the first
  parameter of each name.
* `length_repeats`: there are as many of them as there are parameters more than names.
* `run_builtin_of_read`: all that is found in a manifest.
-/

namespace Tunables

namespace Lint

/-- The parameters with a name that a parameter in front of them has, in order, each with the first
parameter of its name. Some parameters stand in front of all of them. -/
def repeats (before parameters : List Parameter) : List (Parameter × Parameter) :=
  (parameters.zip parameters.inits).filterMap fun (parameter, front) =>
    ((before ++ front).find? fun earlier => earlier.name == parameter.name).map fun first =>
      (parameter, first)

section Repeats

variable {before seen parameters : List Parameter} {parameter : Parameter}

theorem repeats_nil (before : List Parameter) : repeats before [] = [] :=
  rfl

theorem repeats_cons (before : List Parameter) (parameter : Parameter)
    (parameters : List Parameter) :
    repeats before (parameter :: parameters) =
      ((before.find? fun earlier => earlier.name == parameter.name).map
        fun first => (parameter, first)).toList ++
        repeats (before ++ [parameter]) parameters := by
  simp only [repeats, List.inits_cons, List.zip_cons_cons, List.zip_map_right, List.filterMap_cons,
    List.filterMap_map, List.append_nil]
  cases before.find? fun earlier => earlier.name == parameter.name <;> simp

/-- A parameter whose name another one has already is never found by its name. -/
theorem find?_concat_of_find? {first : Parameter}
    (h : (before.find? fun earlier => earlier.name == parameter.name) = some first)
    (name : String) : ((before ++ [parameter]).find? fun earlier => earlier.name == name) =
      before.find? fun earlier => earlier.name == name := by
  rw [List.find?_append]
  by_cases hname : parameter.name = name
  · rw [← hname, h, Option.some_or]
  · simp [hname]

/-- It is enough to keep the first parameter of each name. -/
theorem duplicates_eq_repeats
    (h : ∀ name, (seen.find? fun earlier => earlier.name == name) = before.find? fun earlier =>
      earlier.name == name) :
    duplicates seen parameters = repeats before parameters := by
  induction parameters generalizing seen before with
  | nil => rfl
  | cons parameter parameters ih =>
      rw [duplicates, repeats_cons, h]
      cases hfirst : before.find? fun earlier => earlier.name == parameter.name with
      | some first =>
          have hkept := ih fun name => (h name).trans (find?_concat_of_find? hfirst name).symm
          simp only [hkept, Option.map_some, Option.toList_some, List.cons_append, List.nil_append]
      | none =>
          have hkept : duplicates (seen ++ [parameter]) parameters =
              repeats (before ++ [parameter]) parameters :=
            ih fun name => by rw [List.find?_append, List.find?_append, h]
          simp only [hkept, Option.map_none, Option.toList_none, List.nil_append]

/-- A parameter either repeats a name or brings a new one. -/
theorem length_repeats_append (before parameters : List Parameter) :
    (repeats before parameters).length + ((before ++ parameters).map Parameter.name).toFinset.card =
      parameters.length + (before.map Parameter.name).toFinset.card := by
  induction parameters generalizing before with
  | nil => simp [repeats_nil]
  | cons parameter parameters ih =>
      have hrest := ih (before ++ [parameter])
      have hnames : ((before ++ [parameter]).map Parameter.name).toFinset =
          insert parameter.name (before.map Parameter.name).toFinset := by
        ext name
        simp [eq_comm]
      rw [hnames, List.append_assoc, List.singleton_append] at hrest
      rw [repeats_cons, List.length_append, List.length_cons]
      cases hfirst : before.find? fun earlier => earlier.name == parameter.name with
      | some first =>
          have hmem : parameter.name ∈ (before.map Parameter.name).toFinset := by
            have hname : first.name = parameter.name := by simpa using List.find?_some hfirst
            rw [List.mem_toFinset, ← hname]
            exact List.mem_map_of_mem (List.mem_of_find?_eq_some hfirst)
          rw [Finset.insert_eq_of_mem hmem] at hrest
          simp only [Option.map_some, Option.toList_some, List.length_singleton]
          omega
      | none =>
          have hnew : parameter.name ∉ (before.map Parameter.name).toFinset := by
            rw [List.mem_toFinset, List.mem_map]
            rintro ⟨earlier, hmem, hname⟩
            exact List.find?_eq_none.mp hfirst earlier hmem (beq_iff_eq.mpr hname)
          rw [Finset.card_insert_of_notMem hnew] at hrest
          simp only [Option.map_none, Option.toList_none, List.length_nil]
          omega

/-- There are as many repeated names as there are parameters more than names. -/
theorem length_repeats (parameters : List Parameter) :
    (repeats [] parameters).length + (parameters.map Parameter.name).dedup.length =
      parameters.length := by
  have hcount := length_repeats_append [] parameters
  rwa [List.nil_append, List.card_toFinset, List.map_nil, List.toFinset_nil, Finset.card_empty,
    Nat.add_zero] at hcount

end Repeats

section Names

/-- The lint for names accepts the names that are accepted when a manifest is read. -/
theorem nameFault?_eq_none_iff (name : String) :
    nameFault? name = none ↔ isCppKeyword name = false ∧ IsIdentifier name.toList := by
  rw [nameFault?, ← IdentifierFault.of?_eq_none_iff]
  cases isCppKeyword name <;> simp

theorem isSome_nameFault?_iff (name : Toml.Spanned String) :
    (nameFault? name.value).isSome = true ↔ ∃ fault, Manifest.checkName name = .error fault := by
  rw [Option.isSome_iff_ne_none, Ne, nameFault?_eq_none_iff]
  cases hcheck : Manifest.checkName name with
  | ok found =>
      obtain ⟨_, hname⟩ := Manifest.checkName_eq_ok_iff.mp hcheck
      exact iff_of_false (not_not_intro hname) (by rintro ⟨_, ⟨⟩⟩)
  | error fault =>
      refine iff_of_true (fun hname => ?_) ⟨fault, rfl⟩
      cases hcheck.symm.trans (Manifest.checkName_eq_ok_iff.mpr ⟨rfl, hname⟩)

end Names

section Findings

theorem duplicateMessage_eq (parameter first : Parameter) :
    duplicateMessage parameter first =
      "duplicate parameter '".toList ++ parameter.name.toList ++ "' (first declared at ".toList ++
        first.location.file.toList ++ ':' :: Text.numeral first.location.line ++ [')'] := by
  have hbegin : "duplicate parameter '".toList = "duplicate parameter ".toList ++ ['\''] := by cbv
  have hmiddle : "' (first declared at ".toList = '\'' :: " (first declared at ".toList := by cbv
  unfold duplicateMessage
  simp only [quoted, Location.text, hbegin, hmiddle, List.append_assoc, List.cons_append,
    List.nil_append]

theorem check_emptyDescription (parameters : List Parameter) :
    check .emptyDescription parameters =
      (parameters.filter fun parameter => parameter.description.toList.all Text.isBlank).map
        fun parameter =>
        ⟨.emptyDescription,
          "parameter '".toList ++ parameter.name.toList ++ "' has no description".toList,
          parameter.location⟩ := by
  have hbegin : "parameter '".toList = "parameter ".toList ++ ['\''] := by cbv
  have hend : "' has no description".toList = '\'' :: " has no description".toList := by cbv
  simp only [check, Text.isBlankText, quoted, hbegin, hend, List.append_assoc, List.cons_append,
    List.nil_append]

/-- A finding is signed by the lint that made it. -/
theorem lint_of_mem_check {lint : Lint} {finding : Finding} (h : finding ∈ lint.check parameters) :
    finding.lint = lint := by
  cases lint with
  | duplicateName =>
      obtain ⟨_, _, rfl⟩ := List.mem_map.mp h
      rfl
  | emptyDescription =>
      obtain ⟨_, _, rfl⟩ := List.mem_map.mp h
      rfl
  | invalidIdentifier =>
      obtain ⟨_, _, hfinding⟩ := List.mem_filterMap.mp h
      obtain ⟨_, _, rfl⟩ := Option.map_eq_some_iff.mp hfinding
      rfl

end Findings

section Manifests

variable {text : List Char} {file : String} {manifest : Manifest} {parameters : List Parameter}

/-- The parameters of a manifest are its entries, in their order and at their places. -/
theorem forall₂_yields (h : manifest.parameters = .ok parameters) :
    List.Forall₂ (fun entry parameter =>
      entry.declaration.Yields ⟨manifest.file, entry.line⟩ parameter)
      manifest.entries parameters :=
  (except_mapM_eq_ok_iff.mp h).imp fun _ _ haccept => (Parameter.accept_eq_ok_iff.mp haccept).2

/-- The names of the parameters were checked when the manifest was read. -/
theorem nameFault?_of_read (hread : Manifest.read text file = .ok manifest)
    (hparameters : manifest.parameters = .ok parameters) :
    ∀ parameter ∈ parameters, nameFault? parameter.name = none := by
  have hentries :=
    (List.forall₂_and_left _ _).mpr ⟨Manifest.checked_of_read hread, forall₂_yields hparameters⟩
  have hnames : List.Forall₂
      (fun parameter entry => nameFault? parameter.name = none ∧ (entry : Manifest.Entry) = entry)
      parameters manifest.entries :=
    hentries.flip.imp fun parameter entry ⟨hchecked, hyields⟩ => by
      rw [nameFault?_eq_none_iff, hyields.name]
      exact ⟨hchecked, rfl⟩
  exact ((List.forall₂_and_left _ _).mp hnames).1

/-- **What is found in a manifest.**  Every parameter whose name occurred before is reported at its
own place, with the place of the first parameter of that name, and then every parameter with a
blank description.  The names of a manifest are in order, since reading it refuses the names that
the lint would report. -/
theorem run_builtin_of_read (hread : Manifest.read text file = .ok manifest)
    (hparameters : manifest.parameters = .ok parameters) :
    List.Forall₂ (fun entry parameter => parameter.name = entry.declaration.name ∧
        parameter.description = entry.declaration.description ∧
        parameter.location = ⟨manifest.file, entry.line⟩)
      manifest.entries parameters ∧
    run builtin parameters =
      ((repeats [] parameters).map fun (parameter, first) =>
        ⟨.duplicateName, "duplicate parameter '".toList ++ parameter.name.toList ++
          "' (first declared at ".toList ++ first.location.file.toList ++
            ':' :: Text.numeral first.location.line ++ [')'], parameter.location⟩) ++
      ((parameters.filter fun parameter => parameter.description.toList.all Text.isBlank).map
        fun parameter =>
        ⟨.emptyDescription,
          "parameter '".toList ++ parameter.name.toList ++ "' has no description".toList,
          parameter.location⟩) ∧
    (repeats [] parameters).length + (parameters.map Parameter.name).dedup.length =
      parameters.length ∧
    (∀ finding ∈ run builtin parameters, finding.lint ≠ .invalidIdentifier) ∧
    ∀ name : Toml.Spanned String,
      (nameFault? name.value).isSome = true ↔ ∃ fault, Manifest.checkName name = .error fault := by
  have hinvalid : check .invalidIdentifier parameters = [] := by
    rw [check, List.filterMap_eq_nil_iff]
    intro parameter hparameter
    rw [nameFault?_of_read hread hparameters parameter hparameter, Option.map_none]
  have hrun : run builtin parameters =
      check .duplicateName parameters ++ check .emptyDescription parameters := by
    simp only [run, builtin, List.flatMap_cons, List.flatMap_nil, hinvalid, List.append_nil]
  refine ⟨(forall₂_yields hparameters).imp fun _ _ h => ⟨h.name, h.description, h.location⟩, ?_,
    length_repeats parameters, ?_, isSome_nameFault?_iff⟩
  · have hduplicates : duplicates [] parameters = repeats [] parameters :=
      duplicates_eq_repeats fun _ => rfl
    rw [hrun, check_emptyDescription, check, hduplicates]
    simp only [duplicateMessage_eq]
  · intro finding hfinding
    rw [hrun, List.mem_append] at hfinding
    rcases hfinding with hfinding | hfinding <;> rw [lint_of_mem_check hfinding] <;> decide

/-- A manifest whose three parameters have one name. -/
def repeatedText : List Char :=
  "[generator]\npackage='p'\nnode='n'\nname='N'\n[[param]]\nname='a'\ntype='str'\n".toList ++
    "description='x'\n[[param]]\nname='a'\ntype='str'\n[[param]]\nname='a'\ntype='str'\n".toList

/-- A name that stands three times is reported twice, each time with its first place. -/
theorem run_builtin_of_read_thrice :
    ∃ manifest parameters,
      Manifest.read repeatedText "m" = .ok manifest ∧
      manifest.parameters = .ok parameters ∧
      run builtin parameters = [
        ⟨.duplicateName, "duplicate parameter 'a' (first declared at m:6)".toList, ⟨"m", 10⟩⟩,
        ⟨.duplicateName, "duplicate parameter 'a' (first declared at m:6)".toList, ⟨"m", 13⟩⟩,
        ⟨.emptyDescription, "parameter 'a' has no description".toList, ⟨"m", 10⟩⟩,
        ⟨.emptyDescription, "parameter 'a' has no description".toList, ⟨"m", 13⟩⟩] := by
  have hdocument : Toml.read repeatedText = some [
      (⟨"generator", ⟨1, 10⟩⟩, ⟨⟨0, 11⟩, .table .header [
        (⟨"package", ⟨12, 19⟩⟩, ⟨⟨20, 23⟩, .text "p"⟩),
        (⟨"node", ⟨24, 28⟩⟩, ⟨⟨29, 32⟩, .text "n"⟩),
        (⟨"name", ⟨33, 37⟩⟩, ⟨⟨38, 41⟩, .text "N"⟩)]⟩),
      (⟨"param", ⟨44, 49⟩⟩, ⟨⟨42, 51⟩, .array true [
        ⟨⟨42, 51⟩, .table .header [
          (⟨"name", ⟨52, 56⟩⟩, ⟨⟨57, 60⟩, .text "a"⟩),
          (⟨"type", ⟨61, 65⟩⟩, ⟨⟨66, 71⟩, .text "str"⟩),
          (⟨"description", ⟨72, 83⟩⟩, ⟨⟨84, 87⟩, .text "x"⟩)]⟩,
        ⟨⟨88, 97⟩, .table .header [
          (⟨"name", ⟨98, 102⟩⟩, ⟨⟨103, 106⟩, .text "a"⟩),
          (⟨"type", ⟨107, 111⟩⟩, ⟨⟨112, 117⟩, .text "str"⟩)]⟩,
        ⟨⟨118, 127⟩, .table .header [
          (⟨"name", ⟨128, 132⟩⟩, ⟨⟨133, 136⟩, .text "a"⟩),
          (⟨"type", ⟨137, 141⟩⟩, ⟨⟨142, 147⟩, .text "str"⟩)]⟩]⟩)] := by
    cbv
  have hread : Manifest.read repeatedText "m" =
      .ok ⟨⟨"p", "n", "N"⟩, none, [
        ⟨⟨"a", .str, 0, "x", none, none, none, ""⟩, 6⟩,
        ⟨⟨"a", .str, 0, "", none, none, none, ""⟩, 10⟩,
        ⟨⟨"a", .str, 0, "", none, none, none, ""⟩, 13⟩], "m"⟩ := by
    refine (Manifest.read_eq_ok_iff hdocument ⟨?_, ?_⟩).mpr ⟨by decide, ?_, Or.inl ?_, rfl⟩
    · rintro _ ⟨⟩
      exact ⟨_, _, rfl⟩
    · rintro _ _ _ ⟨⟩ item hitem
      simp only [List.mem_cons, List.not_mem_nil, or_false] at hitem
      rcases hitem with rfl | rfl | rfl <;> exact ⟨_, _, rfl⟩
    · exact ⟨_, _, _, rfl, by decide, ⟨_, rfl⟩, ⟨_, rfl⟩, ⟨_, rfl⟩, rfl,
        (IdentifierFault.of?_eq_none_iff _).mp (by decide)⟩
    · obtain ⟨hkeyword, hname⟩ := (nameFault?_eq_none_iff "a").mp (by decide)
      refine ⟨_, _, _, rfl,
        .cons ⟨_, _, rfl, ?_⟩ (.cons ⟨_, _, rfl, ?_⟩ (.cons ⟨_, _, rfl, ?_⟩ .nil))⟩
      · exact ⟨by decide, ⟨_, rfl, by decide +kernel⟩, hname, hkeyword, ⟨_, rfl⟩, Or.inr ⟨rfl, rfl⟩,
          ⟨some "x", ⟨_, rfl⟩, rfl⟩, rfl, rfl, rfl, none, rfl, rfl⟩
      all_goals
        exact ⟨by decide, ⟨_, rfl, by decide +kernel⟩, hname, hkeyword, ⟨_, rfl⟩, Or.inr ⟨rfl, rfl⟩,
          ⟨none, rfl, rfl⟩, rfl, rfl, rfl, none, rfl, rfl⟩
  have hparameters : Manifest.parameters ⟨⟨"p", "n", "N"⟩, none, [
      ⟨⟨"a", .str, 0, "x", none, none, none, ""⟩, 6⟩,
      ⟨⟨"a", .str, 0, "", none, none, none, ""⟩, 10⟩,
      ⟨⟨"a", .str, 0, "", none, none, none, ""⟩, 13⟩], "m"⟩ = .ok [
      ⟨"a", .str "", 0, "x", "", ⟨"m", 6⟩⟩, ⟨"a", .str "", 0, "", "", ⟨"m", 10⟩⟩,
        ⟨"a", .str "", 0, "", "", ⟨"m", 13⟩⟩] := by
    rfl
  refine ⟨_, _, hread, hparameters, (run_builtin_of_read hread hparameters).2.1.trans ?_⟩
  decide +kernel

end Manifests

end Lint
end Tunables
