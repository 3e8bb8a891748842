import Mathlib.Data.List.Forall2
import Mathlib.Data.List.Nodup
import Stencil.Failure
import Stencil.Proofs.Config.Accepted
import Stencil.Proofs.Number.SafeIntegers
import Stencil.Proofs.Related

/-! Accepted configurations are normal forms: as plain data they are accepted again and come back as
they were. Targets are accepted one by one, and all of them together unless two have one name.
-/

namespace Stencil

/-- A whole number that is safe is itself as a number. -/
theorem Number.toInt?_ofNat {n : Nat} (safe : n ≤ maxSafe)
    : ∃ magnitude, ofNat n = .finite false magnitude ∧ (finite false magnitude).toInt? = some (n : Int) := by
  obtain ⟨magnitude, nearest, whole⟩ :=
    Magnitude.exists_ofRatio? (Nat.lt_of_le_of_lt safe maxSafe_lt)
  refine ⟨magnitude, ?_, toInt?_finite whole false⟩
  rw [ofNat, ofRatio_def]
  simp only [nearest]

namespace Config

-----------------------------------------------------------------------------------------
-- Checks that are put together
-----------------------------------------------------------------------------------------

namespace Checked

variable {α β : Type} {checked : Checked α} {value : α}

theorem accepts_pure (value : α) : (pure value : Checked α).Accepts value :=
  ⟨rfl, rfl⟩

theorem accepts_pure_iff {found : α} : (pure found : Checked α).Accepts value ↔ found = value :=
  ⟨fun h => Option.some.inj h.hasValue, fun same => same ▸ accepts_pure _⟩

theorem Accepts.map (h : checked.Accepts value) (f : α → β) : (f <$> checked).Accepts (f value) :=
  ⟨h.noIssues, congrArg (Option.map f) h.hasValue⟩

theorem Accepts.seq {functions : Checked (α → β)} {f : α → β} (h : functions.Accepts f)
    (h' : checked.Accepts value)
    : (functions <*> checked).Accepts (f value) := by
  refine ⟨List.append_eq_nil_iff.2 ⟨h.noIssues, h'.noIssues⟩, ?_⟩
  change functions.value?.bind (fun f => checked.value?.map f) = _
  rw [h.hasValue, h'.hasValue]
  rfl

theorem Accepts.under (h : checked.Accepts value) (key : String)
    : (checked.under key).Accepts value :=
  ⟨List.map_eq_nil_iff.2 h.noIssues, h.hasValue⟩

theorem accepts_flawed_iff {found : α} {faults : List Fault}
    : (flawed found faults).Accepts value ↔ faults = [] ∧ found = value := by
  refine ⟨accepts_flawed, ?_⟩
  rintro ⟨rfl, rfl⟩
  exact accepts_pure _

/-- The items of a list are accepted if each of them is, by induction on the checks. -/
theorem accepts_all_iff {items : List (Checked α)} {values : List α}
    : (all items).Accepts values ↔ List.Forall₂ Accepts items values := by
  induction items generalizing values with
  | nil =>
      rw [all, accepts_pure_iff, List.forall₂_nil_left_iff, eq_comm]
  | cons item items ih =>
      constructor
      · intro h
        obtain ⟨_, rest, first, later, rfl⟩ := h.of_seq
        obtain ⟨value, here, rfl⟩ := first.of_map
        exact .cons here (ih.1 later)
      · rintro (_ | ⟨here, later⟩)
        exact (here.map _).seq (ih.2 later)

end Checked

open Checked (accepts_pure accepts_pure_iff accepts_flawed_iff accepts_all_iff
  not_accepts_refusedFor)

-----------------------------------------------------------------------------------------
-- Single members
-----------------------------------------------------------------------------------------

theorem checkText_accepts_iff {data : Plain} {text : String}
    : (checkText data).Accepts text ↔ data = .text text ∧ text ≠ "" := by
  unfold checkText
  split
  · rw [accepts_flawed_iff]
    constructor
    · rintro ⟨faultless, rfl⟩
      exact ⟨rfl, fun empty => by simp [empty] at faultless⟩
    · rintro ⟨same, nonempty⟩
      cases same
      exact ⟨if_neg nonempty, rfl⟩
  · rename_i noText
    refine ⟨fun h => absurd h not_accepts_refusedFor, ?_⟩
    rintro ⟨rfl, _⟩
    exact absurd rfl (noText text)

theorem texts?_map_text (texts : List String) : texts? (texts.map .text) = some texts := by
  induction texts with
  | nil => rfl
  | cons text texts ih => rw [List.map_cons, texts?, ih, Option.map_some]

theorem checkTexts_accepts (texts : List String)
    : (checkTexts (.list (texts.map .text))).Accepts texts := by
  rw [checkTexts, texts?_map_text]
  exact accepts_pure _

theorem budgetFaults_eq_nil_iff {n : Int} : budgetFaults n = [] ↔ 0 < n ∧ n ≤ Number.maxSafe := by
  unfold budgetFaults
  split <;> split <;> split <;> simp <;> omega

theorem bounds_of_checkBudget {data : Plain} {budget : Nat} (h : (checkBudget data).Accepts budget)
    : 0 < budget ∧ budget ≤ Number.maxSafe := by
  unfold checkBudget at h
  split at h
  · split at h
    · obtain ⟨faultless, rfl⟩ := accepts_flawed_iff.1 h
      rw [budgetFaults_eq_nil_iff] at faultless
      omega
    · exact absurd h not_accepts_refusedFor
  · exact absurd h not_accepts_refusedFor

theorem checkBudget_accepts {budget : Nat} (positive : 0 < budget) (safe : budget ≤ Number.maxSafe)
    : (checkBudget (.ofNat budget)).Accepts budget := by
  obtain ⟨magnitude, finite, whole⟩ := Number.toInt?_ofNat safe
  rw [Plain.ofNat, finite]
  simp only [checkBudget, whole]
  refine accepts_flawed_iff.2 ⟨budgetFaults_eq_nil_iff.2 ?_, Int.toNat_natCast budget⟩
  omega

theorem checkSuffix_accepts {suffix : String} (h : isSuffix suffix = true)
    : (checkSuffix (.text suffix)).Accepts suffix := by
  rw [checkSuffix, h]
  exact accepts_pure _

/-- A member that is there is checked. -/
theorem orDefault_of_ne {α : Type} {value : α} {check : Plain → Checked α} {data : Plain}
    (there : data ≠ .absent)
    : orDefault value check data = check data := by
  cases data <;> first | rfl | exact absurd rfl there

/-- What is accepted where a member may be left out is the default, or is accepted of the member. -/
theorem accepts_of_orDefault {α : Type} {default value : α} {check : Plain → Checked α}
    {data : Plain} (h : (orDefault default check data).Accepts value)
    : default = value ∨ (check data).Accepts value := by
  by_cases absent : data = .absent
  · subst absent
    exact .inl (accepts_pure_iff.1 h)
  · rw [orDefault_of_ne absent] at h
    exact .inr h

/-- A section that is there is checked. -/
theorem exists_of_orEmpty {α : Type} {value : α} {check : Plain → Checked α} {data : Plain}
    (h : (orEmpty check data).Accepts value)
    : ∃ found, (check found).Accepts value := by
  unfold orEmpty at h
  split at h <;> exact ⟨_, h⟩

/-- What is accepted of an object is accepted of its members. -/
theorem exists_of_checkObject {α : Type} {value : α} {check : Plain → Checked α} {data : Plain}
    (h : (checkObject check data).Accepts value)
    : ∃ members, membersOf? data = some members ∧ (check (.record members)).Accepts value := by
  rw [checkObject] at h
  split at h
  · exact ⟨_, by assumption, h⟩
  · exact absurd h not_accepts_refusedFor

-----------------------------------------------------------------------------------------
-- Sound configurations
-----------------------------------------------------------------------------------------

/-- A target whose name and directories are texts with something in them. -/
structure Target.IsSound (target : Target) : Prop where
  name : target.name ≠ ""
  source : target.source ≠ ""
  output : ∀ text, target.output = some (some text) → text ≠ ""

/-- A configuration that keeps the bounds of its members. -/
structure IsSound (config : Config) : Prop where
  positive : 0 < config.maxSteps
  safe : config.maxSteps ≤ Number.maxSafe
  suffix : isSuffix config.naming.suffix = true
  outputDir : config.naming.outputDir ≠ ""
  targets : ∀ target ∈ config.targets, target.IsSound
  distinct : (config.targets.map Target.name).Nodup

theorem bounds_of_checkRender {data : Plain} {budget : Nat} (h : (checkRender data).Accepts budget)
    : 0 < budget ∧ budget ≤ Number.maxSafe := by
  obtain ⟨_, _, h⟩ := exists_of_checkObject h
  rcases accepts_of_orDefault h.of_under with rfl | h
  · decide
  · exact bounds_of_checkBudget h

theorem outputDir_of_checkNaming {data : Plain} {naming : Naming}
    (h : (checkNaming data).Accepts naming)
    : naming.outputDir ≠ "" := by
  obtain ⟨_, _, h⟩ := exists_of_checkObject h
  obtain ⟨_, outputDir, first, named, rfl⟩ := h.of_seq
  obtain ⟨suffix, _, rfl⟩ := first.of_map
  change outputDir ≠ ""
  rcases accepts_of_orDefault named.of_under with rfl | named
  · decide
  · exact (checkText_accepts_iff.1 named).2

theorem nonempty_of_checkOutput {data : Plain} {output : Option (Option String)} {text : String}
    (h : (checkOutput data).Accepts output) (named : output = some (some text))
    : text ≠ "" := by
  subst named
  rw [checkOutput] at h
  split at h
  · rcases accepts_of_orDefault h.of_under with same | h
    · cases same
    · obtain ⟨_, h, same⟩ := h.of_map
      cases same
      exact (checkText_accepts_iff.1 h).2
  · cases accepts_pure_iff.1 h

theorem isSound_of_checkTarget {data : Plain} {target : Target}
    (h : (checkTarget data).Accepts target)
    : target.IsSound := by
  obtain ⟨_, _, h⟩ := exists_of_checkObject h
  obtain ⟨_, _, first, isOutput, rfl⟩ := h.of_seq
  obtain ⟨_, _, second, _, rfl⟩ := first.of_seq
  obtain ⟨_, _, third, _, rfl⟩ := second.of_seq
  obtain ⟨_, _, fourth, isSource, rfl⟩ := third.of_seq
  obtain ⟨_, isName, rfl⟩ := fourth.of_map
  exact ⟨(checkText_accepts_iff.1 isName.of_under).2, (checkText_accepts_iff.1 isSource.of_under).2,
    fun _ => nonempty_of_checkOutput isOutput⟩

theorem hasMember_output_toPlain (target : Target)
    : target.toPlain.hasMember "output" = target.output.isSome := by
  obtain ⟨_, _, _, _, _ | output⟩ := target <;> rfl

/-- A sound target is accepted as plain data. -/
theorem Target.IsSound.checkTarget_accepts {target : Target} (sound : target.IsSound)
    : (checkTarget target.toPlain).Accepts target := by
  obtain ⟨name, source, data, statics, output⟩ := target
  have isOutput : (checkOutput (Target.toPlain ⟨name, source, data, statics, output⟩)).Accepts
      output := by
    rw [checkOutput, hasMember_output_toPlain]
    rcases output with _ | _ | text
    · exact accepts_pure _
    · exact (accepts_pure _).under _
    · have isText := checkText_accepts_iff.2 ⟨rfl, sound.output text rfl⟩
      exact (isText.map (some ∘ some)).under "output"
  exact ((((((checkText_accepts_iff.2 ⟨rfl, sound.name⟩).under "name").map Target.mk).seq
    ((checkText_accepts_iff.2 ⟨rfl, sound.source⟩).under "source")).seq
    ((checkTexts_accepts data).under "data")).seq
    ((checkTexts_accepts statics).under "static")).seq isOutput

-----------------------------------------------------------------------------------------
-- Names that are repeated
-----------------------------------------------------------------------------------------

/-- The issue of a target at an index, if an earlier target of a list has its name. -/
def nameIssue? (targets : List Target) (item : Target × Nat) : Option Issue :=
  if item.1.name ∈ (targets.take item.2).map Target.name then
    some ⟨["targets", toString item.2, "name"], .repeatedName item.1.name⟩
  else none

/-- The issues of targets whose names earlier targets have, each at the index of its target. -/
def nameIssues (targets : List Target) : List Issue :=
  targets.zipIdx.filterMap (nameIssue? targets)

/-- Names are compared with those that have been passed, by induction on the targets that are left. -/
theorem map_repeatedNames {all left : List Target} (passed : List Target)
    (whole : all = passed ++ left)
    : (repeatedNames (passed.map Target.name).reverse passed.length left).map
        (fun issue => { issue with path := "targets" :: issue.path })
      = (left.zipIdx passed.length).filterMap (nameIssue? all) := by
  induction left generalizing passed with
  | nil => rfl
  | cons target left ih =>
      have next := ih (passed ++ [target]) (by simp [whole])
      rw [List.map_append, List.reverse_append, List.length_append] at next
      change (repeatedNames (target.name :: (passed.map Target.name).reverse) (passed.length + 1)
        left).map _ = (left.zipIdx (passed.length + 1)).filterMap _ at next
      have earlier : all.take passed.length = passed := by rw [whole, List.take_left]
      rw [List.zipIdx_cons, List.filterMap_cons, ← next]
      simp only [repeatedNames, nameIssue?, earlier, List.contains_iff_mem, List.mem_reverse]
      split <;> rfl

theorem repeatedNames_eq_nil_iff {seen : List String} {index : Nat} {targets : List Target}
    : repeatedNames seen index targets = []
      ↔ (targets.map Target.name).Nodup ∧ ∀ target ∈ targets, target.name ∉ seen := by
  induction targets generalizing seen index with
  | nil => simp [repeatedNames]
  | cons target targets ih =>
      simp only [repeatedNames, List.contains_iff_mem, List.map_cons, List.nodup_cons,
        List.forall_mem_cons, List.mem_map, not_exists, not_and]
      split
      · rename_i isSeen
        simp [isSeen]
      · rename_i isNew
        rw [ih]
        simp only [List.mem_cons, not_or, isNew, not_false_eq_true, true_and]
        constructor
        · rintro ⟨nodup, differ⟩
          exact ⟨⟨fun other member => (differ other member).1, nodup⟩,
            fun other member => (differ other member).2⟩
        · rintro ⟨⟨differ, nodup⟩, unseen⟩
          exact ⟨nodup, fun other member => ⟨differ other member, unseen other member⟩⟩

theorem checkTargets_of_accepts {items : List Plain} {targets : List Target}
    (h : List.Forall₂ (fun item target => (checkTarget item).Accepts target) items targets)
    : checkTargets (.list items) = ⟨some targets, repeatedNames [] 0 targets⟩ := by
  have all : (Checked.all (items.zipIdx.map fun item =>
      (checkTarget item.1).under (toString item.2))).Accepts targets := by
    rw [accepts_all_iff, List.forall₂_map_left_iff]
    generalize 0 = start
    induction h generalizing start with
    | nil => exact .nil
    | cons here _ ih => exact .cons (here.under _) (ih _)
  simp only [checkTargets, all.hasValue, all.noIssues, List.nil_append]

/-- The targets of accepted data: each of them is accepted, and no two have one name. -/
theorem exists_of_checkTargets {data : Plain} {targets : List Target}
    (h : (orDefault [] checkTargets data).Accepts targets)
    : (∀ target ∈ targets, target.IsSound) ∧ (targets.map Target.name).Nodup := by
  rcases accepts_of_orDefault h with rfl | h
  · simp
  unfold checkTargets at h
  split at h
  · rename_i items
    simp only at h
    split at h
    · rename_i found hasValue
      obtain rfl : found = targets := Option.some.inj h.hasValue
      obtain ⟨noIssues, distinct⟩ := List.append_eq_nil_iff.1 h.noIssues
      have each := accepts_all_iff.1 ⟨noIssues, hasValue⟩
      refine ⟨fun target member => ?_, (repeatedNames_eq_nil_iff.1 distinct).1⟩
      obtain ⟨checked, isChecked, accepted⟩ := mem_of_forall₂ each member
      obtain ⟨item, _, rfl⟩ := List.mem_map.1 isChecked
      exact isSound_of_checkTarget accepted.of_under
    · rename_i missing
      rw [h.hasValue] at missing
      cases missing
  · exact absurd h not_accepts_refusedFor

-----------------------------------------------------------------------------------------
-- Whole configurations
-----------------------------------------------------------------------------------------

theorem isSound_of_ofPlain {data : Plain} {config : Config} (h : ofPlain data = .ok config)
    : config.IsSound := by
  have suffix := isSuffix_of_ofPlain h
  obtain ⟨_, _, h⟩ := exists_of_checkObject (Checked.accepts_of_result h)
  obtain ⟨_, targets, first, isTargets, rfl⟩ := h.of_seq
  obtain ⟨_, naming, second, isNaming, rfl⟩ := first.of_seq
  obtain ⟨budget, isRender, rfl⟩ := second.of_map
  obtain ⟨_, isRender⟩ := exists_of_orEmpty isRender.of_under
  obtain ⟨_, isNaming⟩ := exists_of_orEmpty isNaming.of_under
  obtain ⟨positive, safe⟩ := bounds_of_checkRender isRender
  obtain ⟨each, distinct⟩ := exists_of_checkTargets isTargets.of_under
  exact ⟨positive, safe, suffix, outputDir_of_checkNaming isNaming, each, distinct⟩

/-- Data whose sections and targets are valid each by itself. -/
structure HasParts (data : Plain) (maxSteps : Nat) (naming : Naming) (targets : List Target)
    : Prop where
  /-- The data is an object. -/
  isObject : (membersOf? data).isSome
  render : (orEmpty checkRender (.member "render" (.record ((membersOf? data).getD [])))).Accepts
    maxSteps
  generate : (orEmpty checkNaming (.member "generate" (.record ((membersOf? data).getD [])))).Accepts
    naming
  targets :
    Plain.member "targets" (.record ((membersOf? data).getD [])) = .absent ∧ targets = []
    ∨ ∃ items,
        Plain.member "targets" (.record ((membersOf? data).getD [])) = .list items
        ∧ List.Forall₂ (fun item target => (checkTarget item).Accepts target) items targets

theorem nameIssues_eq_nil_iff {targets : List Target}
    : nameIssues targets = [] ↔ (targets.map Target.name).Nodup := by
  have issues := map_repeatedNames [] (List.nil_append targets).symm
  rw [List.length_nil] at issues
  rw [nameIssues, ← issues, List.map_eq_nil_iff, repeatedNames_eq_nil_iff]
  simp

/-- Data with valid parts is accepted, unless two targets have one name. -/
theorem HasParts.ofPlain_eq {data : Plain} {maxSteps : Nat} {naming : Naming}
    {targets : List Target} (h : HasParts data maxSteps naming targets)
    : ofPlain data
      = if (targets.map Target.name).Nodup then .ok ⟨maxSteps, naming, targets⟩
        else .error (nameIssues targets) := by
  obtain ⟨isObject, render, generate, isTargets⟩ := h
  obtain ⟨members, eq⟩ := Option.isSome_iff_exists.1 isObject
  rw [eq, Option.getD_some] at render generate isTargets
  have checked : checkMember "targets" (orDefault [] checkTargets) (.record members)
      = ⟨some targets, nameIssues targets⟩ := by
    rcases isTargets with ⟨absent, rfl⟩ | ⟨items, isList, each⟩
    · rw [checkMember, absent]
      rfl
    · rw [checkMember, isList, orDefault_of_ne (by simp), checkTargets_of_accepts each,
        Checked.under]
      exact congrArg _ (map_repeatedNames [] rfl)
  obtain ⟨noIssues, hasValue⟩ :=
    ((render.under "render").map Config.mk).seq (generate.under "generate")
  have whole : check data = ⟨some ⟨maxSteps, naming, targets⟩, nameIssues targets⟩ := by
    rw [check, checkObject, eq]
    change Checked.mk (Option.bind _ _) (_ ++ _) = _
    rw [checked, checkMember, checkMember, hasValue, noIssues]
    rfl
  rw [ofPlain, whole]
  split
  · rename_i distinct
    rw [nameIssues_eq_nil_iff.2 distinct]
    rfl
  · rename_i repeated
    cases issues : nameIssues targets with
    | nil => exact absurd (nameIssues_eq_nil_iff.1 issues) repeated
    | cons issue issues => rfl

/-- A sound configuration has its parts as plain data. The datum of the budget is left open: as a
number it would be computed.
-/
theorem IsSound.hasParts {config : Config} (sound : config.IsSound) {budget : Plain}
    (there : budget ≠ .absent) (isBudget : (checkBudget budget).Accepts config.maxSteps)
    : HasParts
        (.record
          [("render", .record [("max_steps", budget)]), ("generate", config.naming.toPlain),
            ("targets", .list (config.targets.map Target.toPlain))])
        config.maxSteps config.naming config.targets := by
  refine ⟨rfl, ?_, ?_, .inr ⟨config.targets.map Target.toPlain, rfl, ?_⟩⟩
  · change ((orDefault 10000000 checkBudget budget).under "max_steps").Accepts _
    rw [orDefault_of_ne there]
    exact isBudget.under "max_steps"
  · exact (((checkSuffix_accepts sound.suffix).under "template_suffix").map Naming.mk).seq
      ((checkText_accepts_iff.2 ⟨rfl, sound.outputDir⟩).under "output_dir")
  · rw [List.forall₂_map_left_iff, List.forall₂_same]
    exact fun target member => (sound.targets target member).checkTarget_accepts

/-- A sound configuration is accepted as plain data, and is what is read from that. -/
theorem IsSound.comesBack {config : Config} (sound : config.IsSound)
    : ofPlain config.toPlain = .ok config := by
  have isBudget := checkBudget_accepts sound.positive sound.safe
  have there : Plain.ofNat config.maxSteps ≠ .absent := Plain.noConfusion
  rw [toPlain, renderToPlain]
  generalize Plain.ofNat config.maxSteps = budget at isBudget there
  rw [(sound.hasParts there isBudget).ofPlain_eq, if_pos sound.distinct]

/-- Where names are distinct, the name of a target finds that target. -/
theorem find?_name {targets : List Target} (distinct : (targets.map Target.name).Nodup)
    {target : Target} (member : target ∈ targets)
    : targets.find? (·.name == target.name) = some target := by
  have isThere : (targets.find? (·.name == target.name)).isSome = true :=
    List.find?_isSome.2 ⟨target, member, by simp⟩
  obtain ⟨found, isFound⟩ := Option.isSome_iff_exists.1 isThere
  have same : found.name = target.name := by simpa using List.find?_some isFound
  rw [isFound, List.inj_on_of_nodup_map distinct (List.mem_of_find?_eq_some isFound) member same]

/-- Where names are distinct, the names of targets select those targets, by induction on them. -/
theorem select_names {config : Config} (distinct : (config.targets.map Target.name).Nodup)
    {chosen : List Target} (nonempty : chosen ≠ [])
    (members : ∀ target ∈ chosen, target ∈ config.targets)
    : config.select (chosen.map Target.name) = .ok chosen := by
  rw [select, if_neg (by simpa using nonempty)]
  clear nonempty
  induction chosen with
  | nil => rfl
  | cons target chosen ih =>
      rw [List.forall_mem_cons] at members
      rw [List.map_cons, List.mapM_cons, find?_name distinct members.1, ih members.2]
      rfl

/-- A render within the budget of a sound configuration is not refused for its budget. -/
theorem IsSound.renderWithin_eq {config : Config} (sound : config.IsSound)
    (tokens : Array Template.Token) (context : Context)
    : Template.renderWithin tokens context (some (.ofNat config.maxSteps))
      = (Template.renderTokens tokens context.root config.maxSteps).mapError .stopped := by
  obtain ⟨magnitude, finite, whole⟩ := Number.toInt?_ofNat sound.safe
  have budget : Template.budgetOf (.finite false magnitude) = .ok config.maxSteps := by
    rw [Template.budgetOf, whole]
  rw [finite]
  generalize Number.finite false magnitude = given at budget
  simp only [Template.renderWithin, Option.elim_some, budget]
  cases Template.renderTokens tokens context.root config.maxSteps <;> rfl

/-- A configuration that is read from itself. -/
structure IsNormalForm (config : Config) : Prop where
  /-- Read again, it comes back as it is. -/
  unchanged : ofPlain config.toPlain = .ok config
  distinct : (config.targets.map Target.name).Nodup
  positive : 0 < config.maxSteps
  /-- The budget of a render is that of the configuration, and is never refused. -/
  renders (tokens : Array Template.Token) (context : Context) :
    Template.renderWithin tokens context (some (.ofNat config.maxSteps))
      = (Template.renderTokens tokens context.root config.maxSteps).mapError .stopped
  /-- The names of targets select those targets, in the order of the names. -/
  selects (chosen : List Target) : chosen ≠ [] → (∀ target ∈ chosen, target ∈ config.targets) →
    config.select (chosen.map Target.name) = .ok chosen

/-- Accepted configurations are normal forms. Data with valid sections and targets is accepted unless
two targets have one name, and then it has one issue for each target whose name occurs earlier.
-/
theorem isNormalForm_of_accepted
    : (∀ data config, ofPlain data = .ok config → config.IsNormalForm)
      ∧ ∀ data maxSteps naming targets, HasParts data maxSteps naming targets →
          ofPlain data
          = if (targets.map Target.name).Nodup then .ok ⟨maxSteps, naming, targets⟩
            else .error (nameIssues targets) := by
  refine ⟨fun data config accepted => ?_, fun data maxSteps naming targets parts => parts.ofPlain_eq⟩
  have sound := isSound_of_ofPlain accepted
  exact ⟨sound.comesBack, sound.distinct, sound.positive, sound.renderWithin_eq,
    fun _ => select_names sound.distinct⟩

/-- Plain data of a target with a name, a source and one more member. -/
def targetData (name source key : String) (value : Plain) : Plain :=
  .record [("name", .text name), ("source", .text source), (key, value)]

/-- Plain data of a configuration with given targets, whose render section is null. -/
def draftData (targets : List Plain) : Plain :=
  .record [("render", .null), ("generate", .record [("template_suffix", .text ".in")]),
    ("targets", .list targets)]

/-- Targets of which the third has the name of the first, as plain data and as they are read. -/
def draftTargets : List (Plain × Target) :=
  [(targetData "a" "x" "data" (.text "d.toml"), ⟨"a", "x", ["d.toml"], [], none⟩),
    (targetData "b" "y" "output" .absent, ⟨"b", "y", [], [], some none⟩),
    (targetData "a" "z" "static" (.list [.text "*.txt"]), ⟨"a", "z", [], ["*.txt"], none⟩)]

def draftConfig : Config :=
  ⟨10000000, ⟨".in", "_generated"⟩, (draftTargets.take 2).map Prod.snd⟩

/-- Two targets are accepted, and a third with the name of the first has an issue at its index. -/
theorem isNormalForm_of_accepted_draft
    : ofPlain (draftData ((draftTargets.take 2).map Prod.fst)) = .ok draftConfig
      ∧ draftConfig.IsNormalForm
      ∧ ofPlain (draftData (draftTargets.map Prod.fst))
        = .error [⟨["targets", "2", "name"], .repeatedName "a"⟩] := by
  have accepted : ofPlain (draftData ((draftTargets.take 2).map Prod.fst)) = .ok draftConfig := rfl
  have each : List.Forall₂ (fun item target => (checkTarget item).Accepts target)
      (draftTargets.map Prod.fst) (draftTargets.map Prod.snd) :=
    .cons ⟨rfl, rfl⟩ (.cons ⟨rfl, rfl⟩ (.cons ⟨rfl, rfl⟩ .nil))
  have parts : HasParts (draftData (draftTargets.map Prod.fst)) 10000000 ⟨".in", "_generated"⟩
      (draftTargets.map Prod.snd) :=
    ⟨rfl, ⟨rfl, rfl⟩, ⟨rfl, rfl⟩, .inr ⟨_, rfl, each⟩⟩
  refine ⟨accepted, isNormalForm_of_accepted.1 _ _ accepted, ?_⟩
  rw [isNormalForm_of_accepted.2 _ _ _ _ parts]
  decide

end Config

end Stencil
