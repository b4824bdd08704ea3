import IslandLayer.Proofs.Arguments.Groups
import Mathlib.Logic.ExistsUnique

set_option autoImplicit false

namespace IslandLayer.Arguments

/-- The value that the last group of an option gives it. -/
def lastValue (option : ValueOption) (groups : List Group) : Option String :=
  (groups.filterMap (Group.value? option)).getLast?

/-- These arguments are what the groups say. -/
structure Describes (groups : List Group) (arguments : Arguments) : Prop where
  scripts : arguments.scripts = groups.filterMap Group.script?
  base : arguments.base = lastValue .base groups
  output : arguments.output = lastValue .output groups
  dropGroup : ∀ size : UInt64, arguments.dropGroup = some size ↔
    ∃ value ∈ lastValue .dropGroup groups,
      Numeral.Signed value.toList size.toNat ∧ 1 ≤ size.toNat
  dropCommand : arguments.dropCommand = lastValue .dropCommand groups
  stackSizes : arguments.stackSizes = lastValue .stackSizes groups
  config : arguments.config = lastValue .config groups
  json : arguments.json = true ↔ ∃ group ∈ groups, group.switch? = some .json
  help : arguments.help = true ↔ ∃ group ∈ groups, group.switch? = some .help

theorem lastValue_cons (kind : ValueOption) (group : Group) (groups : List Group) :
    lastValue kind (group :: groups) = (lastValue kind groups).or (group.value? kind) := by
  rw [lastValue, lastValue, List.filterMap_cons]
  cases group.value? kind with
  | none => exact Option.or_none.symm
  | some value => exact List.getLast?_cons.trans Option.or_some.symm

theorem exists_of_mem_lastValue {kind : ValueOption} {groups : List Group} {value : String}
    (last : value ∈ lastValue kind groups) : ∃ group ∈ groups, group.value? kind = some value :=
  List.mem_filterMap.mp (List.mem_of_getLast? last)

/-- A setting that later arguments replace is the one that the last group of its option gives. -/
theorem ofGroups_last {field : Arguments → Option String} {kind : ValueOption}
    (unset : field {} = none)
    (replaced : ∀ first later, field (followedBy first later) = (field later).or (field first))
    (alone : ∀ group : Group, field group.alone = group.value? kind) (groups : List Group) :
    field (ofGroups groups) = lastValue kind groups := by
  induction groups with
  | nil => exact unset
  | cons group groups ih => rw [ofGroups_cons, replaced, ih, alone, lastValue_cons]

theorem ofGroups_any (field : Arguments → Bool) (off : field {} = false)
    (added : ∀ first later, field (followedBy first later) = (field first || field later))
    (groups : List Group) :
    field (ofGroups groups) = true ↔ ∃ group ∈ groups, field group.alone = true := by
  induction groups with
  | nil => simp [ofGroups, off]
  | cons group groups ih => simp [added, ih]

theorem scripts_ofGroups (groups : List Group) :
    (ofGroups groups).scripts = groups.filterMap Group.script? := by
  induction groups with
  | nil => rfl
  | cons group groups ih =>
    have scripts : (ofGroups (group :: groups)).scripts =
        group.alone.scripts ++ (ofGroups groups).scripts := rfl
    rw [scripts, ih]
    cases group with
    | option kind => cases kind <;> rfl
    | switch kind => cases kind <;> rfl
    | script => rfl

namespace Group

theorem alone_texts (group : Group) :
    group.alone.base = group.value? .base ∧ group.alone.output = group.value? .output ∧
      group.alone.dropCommand = group.value? .dropCommand ∧
      group.alone.stackSizes = group.value? .stackSizes ∧
      group.alone.config = group.value? .config := by
  cases group with
  | option kind => cases kind <;> exact ⟨rfl, rfl, rfl, rfl, rfl⟩
  | switch kind => cases kind <;> exact ⟨rfl, rfl, rfl, rfl, rfl⟩
  | script => exact ⟨rfl, rfl, rfl, rfl, rfl⟩

theorem alone_dropGroup (group : Group) :
    group.alone.dropGroup = (group.value? .dropGroup).bind groupSize? := by
  cases group with
  | option kind => cases kind <;> rfl
  | switch kind => cases kind <;> rfl
  | script => rfl

theorem alone_switches (group : Group) :
    (group.alone.json = true ↔ group.switch? = some .json) ∧
      (group.alone.help = true ↔ group.switch? = some .help) := by
  cases group with
  | option kind => cases kind <;> simp [alone, ofOption, switch?]
  | switch kind => cases kind <;> simp [alone, switch?]
  | script => simp [alone, switch?]

theorem isGroupSize_of_value? {group : Group} {value : String}
    (gives : group.value? .dropGroup = some value) : IsGroupSize value := by
  cases group with
  | option kind flag written spelled fits =>
    obtain ⟨rfl, same⟩ := Option.ite_none_right_eq_some.mp gives
    cases same
    exact fits rfl
  | switch | script => cases gives

end Group

theorem dropGroup_ofGroups (groups : List Group) :
    (ofGroups groups).dropGroup = (lastValue .dropGroup groups).bind groupSize? := by
  induction groups with
  | nil => rfl
  | cons group groups ih =>
    have replaced : (ofGroups (group :: groups)).dropGroup =
        (ofGroups groups).dropGroup.or group.alone.dropGroup := rfl
    rw [replaced, ih, group.alone_dropGroup, lastValue_cons]
    cases last : lastValue .dropGroup groups with
    | none => rfl
    | some value =>
      obtain ⟨giver, -, gives⟩ := exists_of_mem_lastValue last
      obtain ⟨size, read⟩ := isGroupSize_iff.mp (Group.isGroupSize_of_value? gives)
      rw [Option.bind_some, read]
      exact read.symm

theorem describes_ofGroups (groups : List Group) : Describes groups (ofGroups groups) where
  scripts := scripts_ofGroups groups
  base := ofGroups_last rfl (fun _ _ => rfl) (fun group => group.alone_texts.1) groups
  output := ofGroups_last rfl (fun _ _ => rfl) (fun group => group.alone_texts.2.1) groups
  dropGroup size := by
    rw [dropGroup_ofGroups, Option.bind_eq_some_iff]
    simp only [groupSize?_eq_some_iff, Option.mem_def]
  dropCommand := ofGroups_last rfl (fun _ _ => rfl) (fun group => group.alone_texts.2.2.1) groups
  stackSizes := ofGroups_last rfl (fun _ _ => rfl) (fun group => group.alone_texts.2.2.2.1) groups
  config := ofGroups_last rfl (fun _ _ => rfl) (fun group => group.alone_texts.2.2.2.2) groups
  json := by
    rw [ofGroups_any Arguments.json rfl fun _ _ => rfl]
    simp only [Group.alone_switches]
  help := by
    rw [ofGroups_any Arguments.help rfl fun _ _ => rfl]
    simp only [Group.alone_switches]

theorem Describes.unique {groups : List Group} {arguments other : Arguments}
    (first : Describes groups arguments) (second : Describes groups other) : arguments = other := by
  have scripts := first.scripts.trans second.scripts.symm
  have base := first.base.trans second.base.symm
  have output := first.output.trans second.output.symm
  have dropGroup : arguments.dropGroup = other.dropGroup :=
    Option.ext fun size => (first.dropGroup size).trans (second.dropGroup size).symm
  have dropCommand := first.dropCommand.trans second.dropCommand.symm
  have stackSizes := first.stackSizes.trans second.stackSizes.symm
  have config := first.config.trans second.config.symm
  have json := Bool.eq_iff_iff.mpr (first.json.trans second.json.symm)
  have help := Bool.eq_iff_iff.mpr (first.help.trans second.help.symm)
  rcases arguments with ⟨_, _, _, _, _, _, _, _, _⟩
  rcases other with ⟨_, _, _, _, _, _, _, _, _⟩
  simp only [Arguments.mk.injEq]
  exact ⟨scripts, base, output, dropGroup, dropCommand, stackSizes, config, json, help⟩

theorem lastValue_filter (kind : ValueOption) (groups : List Group) :
    lastValue kind (groups.filter fun group => group.option? = some kind) =
      lastValue kind groups := by
  rw [lastValue, lastValue, List.filterMap_filter]
  apply congrArg List.getLast?
  apply List.filterMap_congr
  intro group mem
  cases group with
  | option other =>
    by_cases same : other = kind
    all_goals simp [Group.option?, Group.value?, same]
  | switch | script => rfl

theorem Describes.perm {groups others : List Group} {arguments : Arguments}
    (describes : Describes groups arguments) (perm : groups.Perm others)
    (scripts : groups.filterMap Group.script? = others.filterMap Group.script?)
    (options : ∀ kind : ValueOption,
      groups.filter (fun group => group.option? = some kind) =
        others.filter fun group => group.option? = some kind) :
    Describes others arguments := by
  have last (kind : ValueOption) : lastValue kind groups = lastValue kind others := by
    rw [← lastValue_filter, options, lastValue_filter]
  have switches (kind : Switch) : (∃ group ∈ groups, group.switch? = some kind) ↔
      ∃ group ∈ others, group.switch? = some kind := by
    simp only [perm.mem_iff]
  exact {
    scripts := describes.scripts.trans scripts
    base := describes.base.trans (last _)
    output := describes.output.trans (last _)
    dropGroup := by
      rw [← last]
      exact describes.dropGroup
    dropCommand := describes.dropCommand.trans (last _)
    stackSizes := describes.stackSizes.trans (last _)
    config := describes.config.trans (last _)
    json := describes.json.trans (switches _)
    help := describes.help.trans (switches _) }

theorem exists_describes_of_read {arguments : List String} {parsed : Arguments}
    (done : read arguments = .ok parsed) : ∃ groups, Describes groups parsed := by
  obtain ⟨groups, rest, splits⟩ := exists_splits arguments
  rcases splits.read_cases with ⟨-, read⟩ | ⟨e, -, failed⟩
  · rw [read] at done
    cases done
    exact ⟨groups, describes_ofGroups groups⟩
  · rw [failed] at done
    cases done

/-- Arguments split into groups in one way. They cannot be read if no group stands where the groups
end, and then for that reason. Otherwise they are read as what the groups say, and groups in another
order say the same as long as scripts and groups of one option keep theirs. -/
theorem read_in_groups :
    (∀ arguments : List String,
      ∃! split : List Group × List String, Splits arguments split.1 split.2) ∧
    (∀ (arguments : List String) (groups : List Group) (rest : List String),
      Splits arguments groups rest →
        ((∃ e, read arguments = .error e) ↔ rest ≠ []) ∧
        ∀ e, read arguments = .error e ↔ Stops rest e) ∧
    (∀ groups : List Group, ∃ arguments,
      read (groups.flatMap Group.words) = .ok arguments ∧ Describes groups arguments) ∧
    ∀ groups others : List Group, groups.Perm others →
      groups.filterMap Group.script? = others.filterMap Group.script? →
      (∀ kind : ValueOption,
        groups.filter (fun group => group.option? = some kind) =
          others.filter fun group => group.option? = some kind) →
      read (groups.flatMap Group.words) = read (others.flatMap Group.words) := by
  refine ⟨?_, ?_, ?_, ?_⟩
  · intro arguments
    obtain ⟨groups, rest, splits⟩ := exists_splits arguments
    refine ⟨(groups, rest), splits, ?_⟩
    intro other again
    obtain ⟨sameGroups, sameRest⟩ := again.unique splits
    exact Prod.ext sameGroups sameRest
  · intro arguments groups rest splits
    have failing (e : ArgumentError) := splits.read_eq_error_iff e
    refine ⟨?_, failing⟩
    rw [exists_congr failing]
    constructor
    · rintro ⟨e, stops⟩
      cases stops
      all_goals exact List.cons_ne_nil _ _
    · exact splits.stopped.resolve_left
  · exact fun groups => ⟨_, read_groups groups, describes_ofGroups groups⟩
  · intro groups others perm scripts options
    have same := (describes_ofGroups groups).perm perm scripts options
    rw [read_groups, read_groups, same.unique (describes_ofGroups others)]

/-- A base that looks like a switch and an empty script are groups, a size of none is not one; and
two spellings of an option do not change places while the rest does. -/
theorem read_in_groups_of_mixed :
    let base := Group.option .base "-b" "--json" (by decide) nofun
    let again := Group.option .base "--base" "a" (by decide) nofun
    let json := Group.switch .json "--json" (by decide)
    let script := Group.script "" nofun
    Splits ["-b", "--json", "", "--drop-group", "+0", "-x"] [base, script]
      ["--drop-group", "+0", "-x"] ∧
    read ["-b", "--json", "", "--drop-group", "+0", "-x"] =
      .error (.invalidValue "--drop-group" "+0") ∧
    [base, json, script, again].Perm [script, base, again, json] ∧
    read ["-b", "--json", "--json", "", "--base", "a"] =
      read ["", "-b", "--json", "--base", "a", "--json"] := by
  intro base again json script
  have unfit : ¬ IsGroupSize "+0" := by
    have unread : groupSize? "+0" = none := by decide
    simp [isGroupSize_iff, unread]
  have stops : Stops ["--drop-group", "+0", "-x"] (.invalidValue "--drop-group" "+0") :=
    .invalid (by decide) unfit
  have splits : Splits ["-b", "--json", "", "--drop-group", "+0", "-x"] [base, script]
      ["--drop-group", "+0", "-x"] := ⟨rfl, Or.inr ⟨_, stops⟩⟩
  have front : [base, json, script, again].Perm [script, base, json, again] :=
    @List.perm_middle _ script [base, json] [again]
  have perm : [base, json, script, again].Perm [script, base, again, json] :=
    front.trans (((List.Perm.swap again json []).cons base).cons script)
  have options : ∀ kind : ValueOption,
      [base, json, script, again].filter (fun group => group.option? = some kind) =
        [script, base, again, json].filter fun group => group.option? = some kind := by
    intro kind
    cases kind
    all_goals rfl
  obtain ⟨-, failing, -, reordered⟩ := read_in_groups
  exact ⟨splits, ((failing _ _ _ splits).2 _).mpr stops, perm, reordered _ _ perm rfl options⟩

end IslandLayer.Arguments
