import IslandLayer.Arguments
import IslandLayer.Proofs.Text.Numeral
import Mathlib.Data.List.Basic

set_option autoImplicit false

namespace IslandLayer

namespace ValueOption

def flags : ValueOption → List String
  | base => ["-b", "--base"]
  | output => ["-o", "--output"]
  | dropGroup => ["--drop-group"]
  | dropCommand => ["--drop-command"]
  | stackSizes => ["--stack-sizes"]
  | config => ["--config"]

theorem ofFlag?_eq_some_iff {flag : String} {option : ValueOption} :
    ofFlag? flag = some option ↔ flag ∈ option.flags := by
  constructor
  · intro read
    unfold ofFlag? at read
    split at read
    case h_9 => cases read
    all_goals
      cases read
      decide
  · intro spelled
    cases option
    all_goals
      simp only [flags, List.mem_cons, List.not_mem_nil, or_false] at spelled
      rcases spelled with rfl | rfl
      all_goals rfl

theorem ofFlag?_eq_none_iff {flag : String} :
    ofFlag? flag = none ↔ ∀ option : ValueOption, flag ∉ option.flags := by
  simp only [Option.eq_none_iff_forall_ne_some, ne_eq, ofFlag?_eq_some_iff]

end ValueOption

namespace Switch

def flags : Switch → List String
  | json => ["--json"]
  | help => ["-h", "--help"]

theorem ofFlag?_eq_some_iff {flag : String} {switch : Switch} :
    ofFlag? flag = some switch ↔ flag ∈ switch.flags := by
  constructor
  · intro read
    unfold ofFlag? at read
    split at read
    case h_4 => cases read
    all_goals
      cases read
      decide
  · intro spelled
    cases switch
    all_goals
      simp only [flags, List.mem_cons, List.not_mem_nil, or_false] at spelled
      rcases spelled with rfl | rfl
      all_goals rfl

theorem ofFlag?_eq_none_iff {flag : String} :
    ofFlag? flag = none ↔ ∀ switch : Switch, flag ∉ switch.flags := by
  simp only [Option.eq_none_iff_forall_ne_some, ne_eq, ofFlag?_eq_some_iff]

theorem not_option_of_mem_flags {flag : String} {switch : Switch} (spelled : flag ∈ switch.flags) :
    ValueOption.ofFlag? flag = none := by
  have all : ∀ flag ∈ switch.flags, ValueOption.ofFlag? flag = none := by
    cases switch
    all_goals simp [flags, ValueOption.ofFlag?]
  exact all flag spelled

theorem not_switch_of_mem_flags {flag : String} {option : ValueOption}
    (spelled : flag ∈ option.flags) : ofFlag? flag = none := by
  refine ofFlag?_eq_none_iff.mpr fun switch same => ?_
  have none := not_option_of_mem_flags same
  rw [ValueOption.ofFlag?_eq_some_iff.mpr spelled] at none
  cases none

end Switch

namespace Arguments

/-- A number from one on that fits 64 bits, with or without a plus sign. -/
def IsGroupSize (value : String) : Prop :=
  ∃ size, Numeral.Signed value.toList size ∧ 1 ≤ size ∧ size < UInt64.size

/-- The argument does not start with a dash, or is a dash. -/
def IsScript (argument : String) : Prop := argument.toList.head? = some '-' → argument = "-"

/-- What an option stands for, if it has a value. -/
def ofOption : ValueOption → Option String → Arguments
  | .base, value => { base := value }
  | .output, value => { output := value }
  | .dropGroup, value => { dropGroup := value.bind groupSize? }
  | .dropCommand, value => { dropCommand := value }
  | .stackSizes, value => { stackSizes := value }
  | .config, value => { config := value }

/-- Arguments that belong together. -/
inductive Group where
  /-- An option takes whatever follows it, but `dropGroup` only a number that can be a size. -/
  | option (option : ValueOption) (flag value : String) (spelled : flag ∈ option.flags)
      (fits : option = .dropGroup → IsGroupSize value)
  | switch (switch : Switch) (flag : String) (spelled : flag ∈ switch.flags)
  | script (path : String) (plain : IsScript path)

namespace Group

def words : Group → List String
  | option _ flag value _ _ => [flag, value]
  | switch _ flag _ => [flag]
  | script path _ => [path]

def option? : Group → Option ValueOption
  | option kind _ _ _ _ => some kind
  | _ => none

def value? (asked : ValueOption) : Group → Option String
  | option kind _ value _ _ => if kind = asked then some value else none
  | _ => none

def switch? : Group → Option Switch
  | switch kind _ _ => some kind
  | _ => none

def script? : Group → Option String
  | script path _ => some path
  | _ => none

def alone : Group → Arguments
  | option kind _ value _ _ => ofOption kind (some value)
  | switch .json _ _ => { json := true }
  | switch .help _ _ => { help := true }
  | script path _ => { scripts := [path] }

end Group

/-- No group can be read at the start of these arguments, and this is why. -/
inductive Stops : List String → ArgumentError → Prop where
  | unknown {argument : String} {rest : List String} (flag : ¬ IsScript argument)
      (noOption : ∀ option : ValueOption, argument ∉ option.flags)
      (noSwitch : ∀ switch : Switch, argument ∉ switch.flags) :
      Stops (argument :: rest) (.unknown argument)
  | missing {option : ValueOption} {flag : String} (spelled : flag ∈ option.flags) :
      Stops [flag] (.missingValue flag)
  | invalid {flag value : String} {rest : List String}
      (spelled : flag ∈ ValueOption.dropGroup.flags) (unfit : ¬ IsGroupSize value) :
      Stops (flag :: value :: rest) (.invalidValue flag value)

/-- The arguments are these groups, and then they end or no further group can be read. -/
structure Splits (arguments : List String) (groups : List Group) (rest : List String) : Prop where
  whole : arguments = groups.flatMap Group.words ++ rest
  stopped : rest = [] ∨ ∃ e, Stops rest e

theorem groupSize?_eq_some_iff {value : String} {size : UInt64} :
    groupSize? value = some size ↔ Numeral.Signed value.toList size.toNat ∧ 1 ≤ size.toNat := by
  unfold groupSize?
  constructor
  · intro read
    split at read
    · next number signed =>
      obtain ⟨signed, fits⟩ := Numeral.signed?_eq_some_iff.mp signed
      split at read
      · cases read
      · next positive =>
        cases read
        rw [UInt64.toNat_ofNat_of_lt' fits]
        exact ⟨signed, Nat.one_le_iff_ne_zero.mpr positive⟩
    · cases read
  · rintro ⟨signed, positive⟩
    have read := Numeral.signed?_eq_some_iff.mpr ⟨signed, size.toNat_lt⟩
    change Numeral.signed? UInt64.size value.toList = _ at read
    rw [read]
    dsimp only
    rw [if_neg (Nat.one_le_iff_ne_zero.mp positive), UInt64.ofNat_toNat]

theorem isGroupSize_iff {value : String} :
    IsGroupSize value ↔ ∃ size, groupSize? value = some size := by
  simp only [groupSize?_eq_some_iff]
  constructor
  · rintro ⟨size, signed, positive, fits⟩
    refine ⟨UInt64.ofNat size, ?_⟩
    rw [UInt64.toNat_ofNat_of_lt' fits]
    exact ⟨signed, positive⟩
  · rintro ⟨size, signed, positive⟩
    exact ⟨size.toNat, signed, positive, size.toNat_lt⟩

theorem isFlag_iff {argument : String} : isFlag argument = true ↔ ¬ IsScript argument := by
  unfold isFlag IsScript
  split
  · next c rest whole =>
    have other : argument ≠ "-" := by
      rintro rfl
      cases whole
    simp [whole, other]
  · next none =>
    refine iff_of_false (by decide) (Classical.not_not.mpr fun starts => ?_)
    obtain ⟨rest, whole⟩ := List.head?_eq_some_iff.mp starts
    cases rest with
    | nil => exact String.toList_inj.mp whole
    | cons c rest => exact absurd whole (none c rest)

theorem not_option_of_isScript {path : String} (plain : IsScript path) :
    ValueOption.ofFlag? path = none := by
  refine ValueOption.ofFlag?_eq_none_iff.mpr fun option spelled => ?_
  have all : ∀ flag ∈ option.flags, ¬ IsScript flag := by
    cases option
    all_goals simp [ValueOption.flags, IsScript]
  exact all path spelled plain

theorem not_switch_of_isScript {path : String} (plain : IsScript path) :
    Switch.ofFlag? path = none := by
  refine Switch.ofFlag?_eq_none_iff.mpr fun switch spelled => ?_
  have all : ∀ flag ∈ switch.flags, ¬ IsScript flag := by
    cases switch
    all_goals simp [Switch.flags, IsScript]
  exact all path spelled plain

/-- Arguments read on top of others: scripts are added and options get their new values. -/
def followedBy (first later : Arguments) : Arguments where
  scripts := first.scripts ++ later.scripts
  base := later.base.or first.base
  output := later.output.or first.output
  dropGroup := later.dropGroup.or first.dropGroup
  dropCommand := later.dropCommand.or first.dropCommand
  stackSizes := later.stackSizes.or first.stackSizes
  config := later.config.or first.config
  json := first.json || later.json
  help := first.help || later.help

@[simp] theorem followedBy_empty (arguments : Arguments) : arguments.followedBy {} = arguments := by
  simp [followedBy]

@[simp] theorem empty_followedBy (arguments : Arguments) : followedBy {} arguments = arguments := by
  simp [followedBy]

theorem followedBy_assoc (first second third : Arguments) :
    (first.followedBy second).followedBy third = first.followedBy (second.followedBy third) := by
  simp [followedBy, Option.or_assoc, Bool.or_assoc]

def ofGroups (groups : List Group) : Arguments :=
  groups.foldr (fun group later => group.alone.followedBy later) {}

@[simp] theorem ofGroups_cons (group : Group) (groups : List Group) :
    ofGroups (group :: groups) = group.alone.followedBy (ofGroups groups) := rfl

theorem readFrom_words (start : Arguments) (group : Group) (rest : List String) :
    start.readFrom (group.words ++ rest) = (start.followedBy group.alone).readFrom rest := by
  cases group with
  | option kind flag value spelled fits =>
    have known := ValueOption.ofFlag?_eq_some_iff.mpr spelled
    have set : start.setValue kind flag value =
        .ok (start.followedBy (Group.option kind flag value spelled fits).alone) := by
      cases kind with
      | dropGroup =>
        obtain ⟨size, read⟩ := isGroupSize_iff.mp (fits rfl)
        simp [setValue, Group.alone, ofOption, followedBy, read]
      | base | output | dropCommand | stackSizes | config =>
        simp [setValue, Group.alone, ofOption, followedBy]
    rw [Group.words, List.cons_append, List.singleton_append, readFrom, set]
    exact known
  | switch kind flag spelled =>
    have known := Switch.ofFlag?_eq_some_iff.mpr spelled
    have set : start.turnOn kind = start.followedBy (Group.switch kind flag spelled).alone := by
      cases kind
      all_goals simp [turnOn, Group.alone, followedBy]
    have other := Switch.not_option_of_mem_flags spelled
    simp only [Group.words, List.cons_append, List.nil_append, readFrom, other, known, set]
  | script path plain =>
    have unflagged : ¬ isFlag path = true := mt isFlag_iff.mp (Classical.not_not.mpr plain)
    have noOption := not_option_of_isScript plain
    have noSwitch := not_switch_of_isScript plain
    have set : start.addScript path = start.followedBy (Group.script path plain).alone := by
      simp [addScript, Group.alone, followedBy]
    simp only [Group.words, List.cons_append, List.nil_append, readFrom, noOption, noSwitch, set,
      if_neg unflagged]

/-- Groups are read one after the other. -/
theorem readFrom_groups (start : Arguments) (groups : List Group) (rest : List String) :
    start.readFrom (groups.flatMap Group.words ++ rest) =
      (start.followedBy (ofGroups groups)).readFrom rest := by
  induction groups generalizing start with
  | nil =>
    change start.readFrom rest = (start.followedBy {}).readFrom rest
    rw [followedBy_empty]
  | cons group groups ih =>
    rw [List.flatMap_cons, List.append_assoc, readFrom_words, ih, followedBy_assoc]
    rfl

/-- Where no group can be read, nothing that was read before changes that. -/
theorem readFrom_of_stops {rest : List String} {e : ArgumentError} (stops : Stops rest e)
    (start : Arguments) : start.readFrom rest = .error e := by
  cases stops with
  | @unknown argument rest flag noOption noSwitch =>
    have option := ValueOption.ofFlag?_eq_none_iff.mpr noOption
    have switch := Switch.ofFlag?_eq_none_iff.mpr noSwitch
    simp only [readFrom, option, switch, if_pos (isFlag_iff.mpr flag)]
  | missing spelled =>
    unfold readFrom
    rw [ValueOption.ofFlag?_eq_some_iff.mpr spelled]
  | @invalid flag value rest spelled unfit =>
    have unread : groupSize? value = none :=
      Option.eq_none_iff_forall_ne_some.mpr fun size read =>
        unfit (isGroupSize_iff.mpr ⟨size, read⟩)
    have refused : start.setValue .dropGroup flag value = .error (.invalidValue flag value) := by
      rw [setValue, unread]
    rw [readFrom, refused]
    exact ValueOption.ofFlag?_eq_some_iff.mpr spelled

/-- An option takes every value, but the size of groups one of its own. -/
theorem fits_of_setValue {start next : Arguments} {kind : ValueOption} {flag value : String}
    (set : start.setValue kind flag value = .ok next) :
    kind = .dropGroup → IsGroupSize value := by
  rintro rfl
  unfold setValue at set
  cases read : groupSize? value with
  | some size => exact isGroupSize_iff.mpr ⟨size, read⟩
  | none =>
    rw [read] at set
    cases set

theorem unfit_of_setValue {start : Arguments} {kind : ValueOption} {flag value : String}
    {e : ArgumentError} (refused : start.setValue kind flag value = .error e) :
    kind = .dropGroup ∧ ¬ IsGroupSize value := by
  cases kind with
  | dropGroup =>
    refine ⟨rfl, fun fits => ?_⟩
    obtain ⟨size, read⟩ := isGroupSize_iff.mp fits
    rw [setValue, read] at refused
    cases refused
  | base | output | dropCommand | stackSizes | config => cases refused

theorem Splits.of_stops {rest : List String} {e : ArgumentError} (stops : Stops rest e) :
    Splits rest [] rest := ⟨rfl, Or.inr ⟨e, stops⟩⟩

theorem Splits.cons {arguments rest : List String} {groups : List Group}
    (splits : Splits arguments groups rest) (group : Group) :
    Splits (group.words ++ arguments) (group :: groups) rest where
  whole := by rw [List.flatMap_cons, List.append_assoc, ← splits.whole]
  stopped := splits.stopped

/-- The groups are those of the reader, one for each of its steps. -/
theorem exists_splits (arguments : List String) : ∃ groups rest, Splits arguments groups rest := by
  fun_induction readFrom {} arguments with
  | case1 => exact ⟨[], [], rfl, Or.inl rfl⟩
  | case2 start flag kind known =>
    exact ⟨[], _, .of_stops (.missing (ValueOption.ofFlag?_eq_some_iff.mp known))⟩
  | case3 start flag kind value rest known next set ih =>
    obtain ⟨groups, left, splits⟩ := ih
    have spelled := ValueOption.ofFlag?_eq_some_iff.mp known
    exact ⟨_, left, splits.cons (.option kind flag value spelled (fits_of_setValue set))⟩
  | case4 start flag kind value rest known e refused =>
    obtain ⟨rfl, unfit⟩ := unfit_of_setValue refused
    exact ⟨[], _, .of_stops (.invalid (ValueOption.ofFlag?_eq_some_iff.mp known) unfit)⟩
  | case5 start flag rest noOption kind known ih =>
    obtain ⟨groups, left, splits⟩ := ih
    exact ⟨_, left, splits.cons (.switch kind flag (Switch.ofFlag?_eq_some_iff.mp known))⟩
  | case6 start argument rest noOption noSwitch flag =>
    have option := ValueOption.ofFlag?_eq_none_iff.mp noOption
    have switch := Switch.ofFlag?_eq_none_iff.mp noSwitch
    exact ⟨[], _, .of_stops (.unknown (isFlag_iff.mp flag) option switch)⟩
  | case7 start path rest noOption noSwitch unflagged ih =>
    obtain ⟨groups, left, splits⟩ := ih
    have plain : IsScript path := Classical.not_not.mp (mt isFlag_iff.mpr unflagged)
    exact ⟨_, left, splits.cons (.script path plain)⟩

theorem read_first {group : Group} {first : String} {rest more : List String}
    (starts : group.words ++ rest = first :: more) :
    ValueOption.ofFlag? first = group.option? ∧ Switch.ofFlag? first = group.switch? := by
  cases group with
  | option kind flag value spelled fits =>
    cases starts
    exact ⟨ValueOption.ofFlag?_eq_some_iff.mpr spelled, Switch.not_switch_of_mem_flags spelled⟩
  | switch kind flag spelled =>
    cases starts
    exact ⟨Switch.not_option_of_mem_flags spelled, Switch.ofFlag?_eq_some_iff.mpr spelled⟩
  | script path plain =>
    cases starts
    exact ⟨not_option_of_isScript plain, not_switch_of_isScript plain⟩

theorem words_append_inj {group other : Group} {rest left : List String}
    (same : group.words ++ rest = other.words ++ left) : group = other ∧ rest = left := by
  obtain ⟨first, more, starts⟩ : ∃ first more, group.words ++ rest = first :: more := by
    cases group
    all_goals exact ⟨_, _, rfl⟩
  obtain ⟨option, switch⟩ := read_first starts
  rw [(read_first (same.symm.trans starts)).1] at option
  rw [(read_first (same.symm.trans starts)).2] at switch
  cases group with
  | option kind flag value spelled fits =>
    cases other with
    | option => cases option; cases same; exact ⟨rfl, rfl⟩
    | switch | script => cases option
  | switch kind flag spelled =>
    cases other with
    | switch => cases switch; cases same; exact ⟨rfl, rfl⟩
    | option => cases option
    | script => cases switch
  | script path plain =>
    cases other with
    | script => cases same; exact ⟨rfl, rfl⟩
    | option => cases option
    | switch => cases switch

theorem not_stops_words (group : Group) (rest : List String) (e : ArgumentError) :
    ¬ Stops (group.words ++ rest) e := by
  intro stops
  generalize starts : group.words ++ rest = arguments at stops
  cases stops with
  | @unknown argument more flag noOption noSwitch =>
    obtain ⟨option, switch⟩ := read_first starts
    cases group with
    | option kind => exact noOption kind (ValueOption.ofFlag?_eq_some_iff.mp option)
    | switch kind => exact noSwitch kind (Switch.ofFlag?_eq_some_iff.mp switch)
    | script path plain => cases starts; exact flag plain
  | @missing kind flag spelled =>
    obtain ⟨option, -⟩ := read_first starts
    rw [ValueOption.ofFlag?_eq_some_iff.mpr spelled] at option
    cases group with
    | option => cases starts
    | switch | script => cases option
  | @invalid flag value more spelled unfit =>
    obtain ⟨option, -⟩ := read_first starts
    rw [ValueOption.ofFlag?_eq_some_iff.mpr spelled] at option
    cases group with
    | option kind flag value spelled fits => cases option; cases starts; exact unfit (fits rfl)
    | switch | script => cases option

theorem Splits.not_words {group : Group} {rest left : List String}
    (splits : Splits (group.words ++ rest) [] left) : False := by
  have whole : group.words ++ rest = left := splits.whole
  rcases splits.stopped with rfl | ⟨e, stops⟩
  · cases group
    all_goals cases whole
  · exact not_stops_words group rest e (whole ▸ stops)

theorem Splits.tail {group : Group} {groups : List Group} {arguments rest : List String}
    (splits : Splits arguments (group :: groups) rest) :
    ∃ more, arguments = group.words ++ more ∧ Splits more groups rest := by
  have whole := splits.whole
  rw [List.flatMap_cons, List.append_assoc] at whole
  exact ⟨_, whole, rfl, splits.stopped⟩

theorem Splits.unique {groups others : List Group} {arguments rest left : List String}
    (first : Splits arguments groups rest) (second : Splits arguments others left) :
    groups = others ∧ rest = left := by
  induction groups generalizing arguments others with
  | nil =>
    cases others with
    | nil => exact ⟨rfl, first.whole.symm.trans second.whole⟩
    | cons other others =>
      obtain ⟨more, rfl, -⟩ := second.tail
      exact first.not_words.elim
  | cons group groups ih =>
    obtain ⟨more, rfl, later⟩ := first.tail
    cases others with
    | nil => exact second.not_words.elim
    | cons other others =>
      obtain ⟨more', whole, later'⟩ := second.tail
      -- The first word of a group says what kind of group it is, and so where the group ends.
      obtain ⟨rfl, rfl⟩ := words_append_inj whole
      obtain ⟨rfl, rfl⟩ := ih later later'
      exact ⟨rfl, rfl⟩

theorem read_groups (groups : List Group) :
    read (groups.flatMap Group.words) = .ok (ofGroups groups) := by
  simpa [read, readFrom] using readFrom_groups {} groups []

/-- Either the groups are all there is, or what stops them is the answer. -/
theorem Splits.read_cases {groups : List Group} {arguments rest : List String}
    (splits : Splits arguments groups rest) :
    rest = [] ∧ read arguments = .ok (ofGroups groups) ∨
      ∃ e, Stops rest e ∧ read arguments = .error e := by
  have whole := splits.whole
  rcases splits.stopped with rfl | ⟨e, stops⟩
  · rw [List.append_nil] at whole
    exact Or.inl ⟨rfl, whole ▸ read_groups groups⟩
  · refine Or.inr ⟨e, stops, ?_⟩
    rw [read, whole, readFrom_groups, readFrom_of_stops stops]

theorem Splits.read_eq_error_iff {groups : List Group} {arguments rest : List String}
    (splits : Splits arguments groups rest) (e : ArgumentError) :
    read arguments = .error e ↔ Stops rest e := by
  constructor
  · intro failed
    rcases splits.read_cases with ⟨-, done⟩ | ⟨reason, stops, answer⟩
    · rw [done] at failed
      cases failed
    · rw [answer] at failed
      cases failed
      exact stops
  · intro stops
    rw [read, splits.whole, readFrom_groups, readFrom_of_stops stops]

/-- Arguments that are read on top of others say the same as alone. -/
theorem readFrom_eq_followedBy (start : Arguments) (arguments : List String) :
    start.readFrom arguments = (read arguments).map start.followedBy := by
  obtain ⟨groups, rest, splits⟩ := exists_splits arguments
  rcases splits.read_cases with ⟨rfl, done⟩ | ⟨e, stops, failed⟩
  · rw [done, splits.whole, readFrom_groups]
    rfl
  · rw [failed, splits.whole, readFrom_groups, readFrom_of_stops stops]
    rfl

end Arguments

end IslandLayer
