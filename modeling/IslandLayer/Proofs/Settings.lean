import IslandLayer.Proofs.Arguments.Values
import IslandLayer.Settings

set_option autoImplicit false

namespace IslandLayer

namespace Config

/-- The option with its value, if it has one. -/
def written (flag : String) : Option String → List String
  | some value => [flag, value]
  | none => []

def decimal (size : UInt64) : String := String.ofList (Nat.toDigits 10 size.toNat)

/-- The arguments that give what the configuration gives. -/
def toArguments (config : Config) : List String :=
  written "--base" config.base ++ (written "--output" config.output ++
    (written "--stack-sizes" config.stackSizes ++
      (written "--drop-group" (config.dropGroup.map decimal) ++
        (written "--drop-command" config.dropCommand ++ config.scripts))))

/-- What is read from them. -/
def given (config : Config) : Arguments :=
  { base := config.base, output := config.output, scripts := config.scripts,
    stackSizes := config.stackSizes, dropGroup := config.dropGroup,
    dropCommand := config.dropCommand }

end Config

namespace Arguments

theorem groupSize?_decimal {size : UInt64} (positive : size ≠ 0) :
    groupSize? (Config.decimal size) = some size := by
  have signed : Numeral.Signed (Config.decimal size).toList size.toNat := by
    rw [Config.decimal, String.toList_ofList]
    exact ⟨_, Or.inl rfl, Nat.toDigits_ne_nil, Numeral.all_isDigit_toDigits _,
      Numeral.value_toDigits _⟩
  have counted : size.toNat ≠ 0 := fun zero => positive (UInt64.toNat_inj.mp zero)
  exact groupSize?_eq_some_iff.mpr ⟨signed, Nat.one_le_iff_ne_zero.mpr counted⟩

theorem readFrom_written {kind : ValueOption} {flag : String} (spelled : flag ∈ kind.flags)
    {value : Option String} (fits : kind = .dropGroup → ∀ text ∈ value, IsGroupSize text)
    (start : Arguments) (rest : List String) :
    start.readFrom (Config.written flag value ++ rest) =
      (start.followedBy (ofOption kind value)).readFrom rest := by
  cases value with
  | none =>
    have nothing : ofOption kind none = {} := by
      cases kind
      all_goals rfl
    rw [nothing, followedBy_empty]
    rfl
  | some value =>
    have sized : kind = .dropGroup → IsGroupSize value := fun size => fits size value rfl
    exact readFrom_words start (.option kind flag value spelled sized) rest

theorem readFrom_scripts {scripts : List String} (plain : ∀ path ∈ scripts, IsScript path)
    (start : Arguments) (rest : List String) :
    start.readFrom (scripts ++ rest) = (start.followedBy { scripts }).readFrom rest := by
  induction scripts generalizing start with
  | nil => simp
  | cons path scripts ih =>
    have first := readFrom_words start (.script path (plain path List.mem_cons_self))
      (scripts ++ rest)
    have later := ih (fun path mem => plain path (List.mem_cons_of_mem _ mem))
    rw [List.cons_append]
    refine first.trans ((later _).trans ?_)
    rw [followedBy_assoc]
    rfl

/-- The arguments of a configuration are read as what it gives, whatever comes after them. -/
theorem read_toArguments {config : Config} (positive : config.dropGroup ≠ some 0)
    (plain : ∀ path ∈ config.scripts, IsScript path) (arguments : List String) :
    read (config.toArguments ++ arguments) = (read arguments).map config.given.followedBy := by
  have readable {size : UInt64} (chosen : config.dropGroup = some size) :
      groupSize? (Config.decimal size) = some size :=
    groupSize?_decimal fun zero => positive (chosen.trans (congrArg some zero))
  have size : (config.dropGroup.map Config.decimal).bind groupSize? = config.dropGroup := by
    cases chosen : config.dropGroup with
    | none => rfl
    | some size => exact readable chosen
  have fits : ∀ text ∈ config.dropGroup.map Config.decimal, IsGroupSize text := by
    intro text written
    obtain ⟨size, chosen, rfl⟩ := Option.map_eq_some_iff.mp written
    exact isGroupSize_iff.mpr ⟨size, readable chosen⟩
  have base := @readFrom_written .base "--base" (by decide) config.base nofun
  have output := @readFrom_written .output "--output" (by decide) config.output nofun
  have stackSizes :=
    @readFrom_written .stackSizes "--stack-sizes" (by decide) config.stackSizes nofun
  have dropGroup := @readFrom_written .dropGroup "--drop-group" (by decide) _ fun _ => fits
  have dropCommand :=
    @readFrom_written .dropCommand "--drop-command" (by decide) config.dropCommand nofun
  change readFrom {} (config.toArguments ++ arguments) = _
  simp only [Config.toArguments, List.append_assoc]
  rw [base, output, stackSizes, dropGroup, dropCommand, readFrom_scripts plain,
    readFrom_eq_followedBy]
  simp [followedBy, ofOption, size, Config.given]

end Arguments

namespace Settings

/-- It makes no difference whether a setting comes from the configuration or from arguments in
front, as long as the configuration has no groups of none. -/
theorem resolve_given (config : Config) (parsed : Arguments)
    (positive : config.dropGroup ≠ some 0) :
    resolve {} (config.given.followedBy parsed) = resolve config parsed := by
  have size : groupSize {} (config.given.followedBy parsed) = groupSize config parsed := by
    cases chosen : parsed.dropGroup with
    | some size => simp [groupSize, Arguments.followedBy, chosen]
    | none =>
      cases configured : config.dropGroup with
      | none => simp [groupSize, Arguments.followedBy, Config.given, chosen, configured]
      | some size =>
        have nonzero : size ≠ 0 := fun zero => positive (configured.trans (congrArg some zero))
        simp [groupSize, Arguments.followedBy, Config.given, chosen, configured, nonzero]
  rw [resolve, resolve, size]
  simp [Arguments.followedBy, Config.given]

theorem exists_resolve {config : Config} {arguments : List String} {parsed : Arguments}
    (positive : config.dropGroup ≠ some 0) (read : Arguments.read arguments = .ok parsed) :
    ∃ settings, resolve config parsed = .ok settings ∧ 1 ≤ settings.dropGroup := by
  have counted : ∃ size, groupSize config parsed = .ok size ∧ 1 ≤ size := by
    cases chosen : parsed.dropGroup with
    | some size =>
      obtain ⟨groups, describes⟩ := Arguments.exists_describes_of_read read
      obtain ⟨value, -, -, one⟩ := (describes.dropGroup size).mp chosen
      exact ⟨size, by simp [groupSize, chosen], UInt64.le_iff_toNat_le.mpr one⟩
    | none =>
      cases configured : config.dropGroup with
      | none => exact ⟨4, by simp [groupSize, chosen, configured], by decide⟩
      | some size =>
        have nonzero : size ≠ 0 := fun zero => positive (configured.trans (congrArg some zero))
        have one : size.toNat ≠ 0 := fun zero => nonzero (UInt64.toNat_inj.mp zero)
        exact ⟨size, by simp [groupSize, chosen, configured, nonzero],
          UInt64.le_iff_toNat_le.mpr (Nat.one_le_iff_ne_zero.mpr one)⟩
  obtain ⟨size, read, one⟩ := counted
  rw [resolve, read]
  exact ⟨_, rfl, one⟩

/-- Arguments that give what the configuration gives may stand in front of the others in its place.
The same arguments are refused, for the same reason, and the settings are the same. -/
theorem resolve_toArguments {config : Config} (positive : config.dropGroup ≠ some 0)
    (plain : ∀ path ∈ config.scripts, Arguments.IsScript path) (arguments : List String) :
    (∀ e, Arguments.read arguments = .error e ↔
      Arguments.read (config.toArguments ++ arguments) = .error e) ∧
    ∀ parsed, Arguments.read arguments = .ok parsed →
      ∃ whole settings, Arguments.read (config.toArguments ++ arguments) = .ok whole ∧
        resolve config parsed = .ok settings ∧ resolve {} whole = .ok settings ∧
        1 ≤ settings.dropGroup := by
  have together := Arguments.read_toArguments positive plain arguments
  constructor
  · intro e
    rw [together]
    cases Arguments.read arguments with
    | error reason => rfl
    | ok parsed => exact iff_of_false nofun nofun
  · intro parsed read
    obtain ⟨settings, resolved, counted⟩ := exists_resolve positive read
    rw [read] at together
    exact ⟨_, settings, together, resolved, (resolve_given config parsed positive).trans resolved,
      counted⟩

/-- Options given twice, a value that looks like an option, and a dash among the scripts. -/
theorem resolve_toArguments_of_island :
    let config : Config :=
      { base := some "--json", scripts := ["a.txt", "-"], dropGroup := some 8,
        dropCommand := some "" }
    let arguments := ["-", "--drop-group", "+2", "-b", "b.nhl", "--json"]
    let settings : Settings :=
      { base := some "b.nhl", output := none, scripts := ["a.txt", "-", "-"],
        stackSizes := "res/stacksize.txt", dropGroup := 2, dropCommand := "", json := true }
    config.dropGroup ≠ some 0 ∧ (∀ path ∈ config.scripts, Arguments.IsScript path) ∧
    ∃ parsed whole, Arguments.read arguments = .ok parsed ∧
      Arguments.read (config.toArguments ++ arguments) = .ok whole ∧
      resolve config parsed = .ok settings ∧ resolve {} whole = .ok settings := by
  intro config arguments settings
  have positive : config.dropGroup ≠ some 0 := by decide
  have plain : ∀ path ∈ config.scripts, Arguments.IsScript path := by
    simp [config, Arguments.IsScript]
  let parsed : Arguments :=
    { scripts := ["-"], base := some "b.nhl", dropGroup := some 2, json := true }
  have read : Arguments.read arguments = .ok parsed := by decide
  have resolved : resolve config parsed = .ok settings := by decide
  obtain ⟨whole, found, together, first, second, -⟩ :=
    (resolve_toArguments positive plain arguments).2 parsed read
  have same : found = settings := Except.ok.inj (first.symm.trans resolved)
  exact ⟨positive, plain, parsed, whole, read, together, resolved, same ▸ second⟩

end Settings

end IslandLayer
