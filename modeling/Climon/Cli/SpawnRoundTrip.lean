import Climon.Cli.Args
import Climon.Remote.SpawnAuth

namespace Climon.Cli.SpawnRoundTrip

open Climon.Cli.Args Climon.Lib.JavaScript Climon.Proto.Meta Climon.Remote.SpawnAuth

/-!
# Spawn arguments and back

The uplink and the dashboard server turn a spawn request into arguments of the client, which parses
them: options first, then the session flags, then the command, with nothing between them.
-/

/-! ## The builders -/

def flagList (priority color name theme : Option String) : List (SessionFlag × String) :=
  (priority.map (SessionFlag.priority, ·)).toList ++ (color.map (SessionFlag.color, ·)).toList ++
    (name.map (SessionFlag.name, ·)).toList ++ (theme.map (SessionFlag.theme, ·)).toList

def flagArgs (flags : List (SessionFlag × String)) : List String :=
  flags.flatMap fun flag => [flag.1.key, flag.2]

def spawnTokens (headless : Bool) (cwd cols rows : String) (flags : List (SessionFlag × String))
    (command : List String) : List String :=
  "__spawn" :: (if headless then ["--headless"] else []) ++
    ["--cwd", cwd, "--cols", cols, "--rows", rows] ++ flagArgs flags ++ command

/-- The flags of a request; it has no theme. -/
def requestFlags (spawn : SpawnRequest) : List (SessionFlag × String) :=
  flagList (spawn.priority.map fun priority => toString priority.toInt) spawn.color spawn.name none

/-- The uplink's arguments for a request. -/
def buildSpawnArgv (spawn : SpawnRequest) : List String :=
  spawnTokens spawn.headless spawn.cwd spawn.cols.toNat.repr spawn.rows.toNat.repr
    (requestFlags spawn) spawn.command

/-- A color of `some none` is null. -/
structure SpawnMetaOptions where
  name : Option String
  priority : Option Double
  color : Option (Option ColorFlag)
  theme : Option String
  deriving DecidableEq, Repr

structure SpawnArgsInput where
  headless : Bool
  cwd : String
  cols : Double
  rows : Double
  options : SpawnMetaOptions
  deriving DecidableEq, Repr

def metaFlags (options : SpawnMetaOptions) : List (SessionFlag × String) :=
  flagList (options.priority.map Double.toText)
    (options.color.map fun color => (color.getD .none).wireName)
    (options.name.filter (· ≠ "")) (options.theme.filter (· ≠ ""))

/-- The dashboard's arguments. -/
def buildSpawnArgs (command : List String) (input : SpawnArgsInput) : List String :=
  spawnTokens input.headless input.cwd input.cols.toText input.rows.toText
    (metaFlags input.options) command

/-! ## Parsing what was built -/

def setAll (flags : SessionFlags) (values : List (SessionFlag × String)) :
    Except String SessionFlags :=
  match values with
  | [] => .ok flags
  | value :: values => (flags.set value.2 value.1).bind fun flags => setAll flags values

/-- The first word of the command is no session flag, and no option where it follows the options. -/
def Spared (flags : List (SessionFlag × String)) (command : List String) : Prop :=
  ∃ word words, command = word :: words ∧ sessionFlag word = none ∧
    (flags = [] → word ∉ spawnOptions)

section

variable {flags : List (SessionFlag × String)} {command argv : List String}
  {headless : Bool} {cwd cols rows : String}

theorem parseSessionFlags_flagArgs (start : SessionFlags) :
    parseSessionFlags start (flagArgs flags ++ command) =
      (setAll start flags).bind fun flags => parseSessionFlags flags command := by
  induction flags generalizing start with
  | nil => rfl
  | cons flag flags ih =>
    rw [flagArgs, List.flatMap_cons, List.append_assoc]
    change parseSessionFlags start (flag.1.key :: flag.2 :: (flagArgs flags ++ command)) = _
    rw [parseSessionFlags_key, setAll]
    cases start.set flag.2 flag.1 with
    | error e => rfl
    | ok next => exact ih next

theorem key_not_option (flag : SessionFlag) : flag.key ∉ spawnOptions := by
  cases flag <;> decide

/-- What is left of the command is all of it exactly when its first word is no session flag. -/
theorem parseSessionFlags_command {start found : SessionFlags}
    (h : parseSessionFlags start command = .ok (found, argv)) (hne : argv ≠ []) :
    (argv = command ↔ ∃ word words, command = word :: words ∧ sessionFlag word = none) ∧
      (argv = command → found = start) := by
  cases command with
  | nil =>
    cases h
    exact absurd rfl hne
  | cons word words =>
    cases hflag : sessionFlag word with
    | none =>
      rw [parseSessionFlags_word hflag] at h
      cases h
      exact ⟨iff_of_true rfl ⟨word, words, rfl, hflag⟩, fun _ => rfl⟩
    | some flag =>
      have hlength := parseSessionFlags_flag (by simp [hflag]) h
      have hother : argv ≠ word :: words := by
        rintro rfl
        exact absurd hlength (Nat.not_succ_le_self _)
      refine ⟨iff_of_false hother ?_, fun heq => absurd heq hother⟩
      rintro ⟨_, _, heq, hnone⟩
      cases heq
      cases hflag.symm.trans hnone

theorem parse_command {start options : SpawnOptions} {rest : List String} {found : SessionFlags}
    (hoptions : parseSpawnOptions start (flagArgs flags ++ command) = .ok (options, rest))
    (hflags : parseSessionFlags {} rest = .ok (found, argv)) (hne : argv ≠ []) :
    (argv = command ↔ Spared flags command) ∧
      (argv = command → options = start ∧ setAll {} flags = .ok found) := by
  cases flags with
  | cons flag flags =>
    have hword : parseSpawnOptions start (flagArgs (flag :: flags) ++ command) =
        .ok (start, flagArgs (flag :: flags) ++ command) :=
      parseSpawnOptions_word (key_not_option flag.1)
    cases hword.symm.trans hoptions
    rw [parseSessionFlags_flagArgs] at hflags
    obtain ⟨mid, hmid, hcommand⟩ := bind_ok hflags
    obtain ⟨hiff, hfound⟩ := parseSessionFlags_command hcommand hne
    refine ⟨hiff.trans ?_, fun heq => ⟨rfl, hfound heq ▸ hmid⟩⟩
    simp [Spared]
  | nil =>
    cases command with
    | nil =>
      cases hoptions
      cases hflags
      exact absurd rfl hne
    | cons word words =>
      change parseSpawnOptions start (word :: words) = .ok (options, rest) at hoptions
      by_cases hoption : word ∈ spawnOptions
      · have hrest := parseSpawnOptions_option hoption hoptions
        have hargv := parseSessionFlags_length hflags
        have hother : argv ≠ word :: words := by
          rintro rfl
          exact absurd (Nat.le_trans hargv hrest) (Nat.not_succ_le_self _)
        refine ⟨iff_of_false hother ?_, fun heq => absurd heq hother⟩
        rintro ⟨_, _, heq, -, hnot⟩
        cases heq
        exact hnot rfl hoption
      · rw [parseSpawnOptions_word hoption] at hoptions
        cases hoptions
        obtain ⟨hiff, hfound⟩ := parseSessionFlags_command hflags hne
        refine ⟨hiff.trans ?_, fun heq => ⟨rfl, by rw [hfound heq]; rfl⟩⟩
        simp [Spared, hoption]

theorem parseSize_ok {key value : String} {n : UInt16} :
    parseSize key value = .ok n ↔ parseU16 value = some n := by
  unfold parseSize
  cases parseU16 value <;> simp

/-- The options in front of the flags. -/
theorem parseArgs_spawnTokens :
    parseArgs (spawnTokens headless cwd cols rows flags command) =
      (parseSize "--cols" cols).bind fun cols => (parseSize "--rows" rows).bind fun rows =>
        (parseSpawnOptions ⟨headless, some cwd, some cols, some rows⟩
          (flagArgs flags ++ command)).bind fun (options, rest) =>
            (parseSessionFlags {} rest).bind fun (flags, argv) =>
              if argv.isEmpty then
                .error "Provide a command to spawn, e.g. `climon __spawn npm test`."
              else .ok (.spawn ⟨argv, options.headless, options.cwd, options.cols, options.rows,
                flags.name, flags.color, flags.priority, flags.theme⟩) := by
  have htokens : spawnTokens headless cwd cols rows flags command =
      "__spawn" :: ((if headless then ["--headless"] else []) ++ "--cwd" :: cwd :: "--cols" ::
        cols :: "--rows" :: rows :: (flagArgs flags ++ command)) := by
    simp [spawnTokens]
  rw [htokens, parseArgs_spawn, parseSpawn]
  cases headless
  · simp only [Bool.false_eq_true, if_false, List.nil_append, parseSpawnOptions_cwd,
      parseSpawnOptions_cols, parseSpawnOptions_rows]
    cases parseSize "--cols" cols with
    | error e => rfl
    | ok cols => cases parseSize "--rows" rows <;> rfl
  · simp only [if_true, List.cons_append, List.nil_append, parseSpawnOptions_headless,
      parseSpawnOptions_cwd, parseSpawnOptions_cols, parseSpawnOptions_rows]
    cases parseSize "--cols" cols with
    | error e => rfl
    | ok cols => cases parseSize "--rows" rows <;> rfl

/-- What is parsed from options, flags and a command has that command exactly when its first word
is spared and every value reads. -/
theorem parse_spawnTokens_iff {s : SpawnCommand} :
    parseArgs (spawnTokens headless cwd cols rows flags command) = .ok (.spawn s) ∧
      s.argv = command ↔
    Spared flags command ∧ ∃ c r found, parseU16 cols = some c ∧ parseU16 rows = some r ∧
      setAll {} flags = .ok found ∧ s = ⟨command, headless, some cwd, some c, some r, found.name,
        found.color, found.priority, found.theme⟩ := by
  rw [parseArgs_spawnTokens]
  constructor
  · rintro ⟨hparse, hargv⟩
    obtain ⟨c, hcols, hparse⟩ := bind_ok hparse
    obtain ⟨r, hrows, hparse⟩ := bind_ok hparse
    obtain ⟨⟨options, rest⟩, hoptions, hparse⟩ := bind_ok hparse
    obtain ⟨⟨found, argv⟩, hflags, hparse⟩ := bind_ok hparse
    dsimp only at hparse
    split at hparse
    · cases hparse
    next hne =>
      cases hparse
      obtain ⟨hiff, hsame⟩ := parse_command hoptions hflags (by simpa using hne)
      obtain ⟨rfl, hfound⟩ := hsame hargv
      dsimp only at hargv
      exact ⟨hiff.mp hargv, c, r, found, parseSize_ok.mp hcols, parseSize_ok.mp hrows, hfound,
        by rw [hargv]⟩
  · rintro ⟨⟨word, words, rfl, hflag, hoption⟩, c, r, found, hcols, hrows, hfound, rfl⟩
    refine ⟨?_, rfl⟩
    rw [parseSize_ok.mpr hcols, parseSize_ok.mpr hrows]
    have hoptions : parseSpawnOptions ⟨headless, some cwd, some c, some r⟩
        (flagArgs flags ++ word :: words) =
          .ok (⟨headless, some cwd, some c, some r⟩, flagArgs flags ++ word :: words) := by
      cases flags with
      | nil => exact parseSpawnOptions_word (hoption rfl)
      | cons flag flags => exact parseSpawnOptions_word (key_not_option flag.1)
    change (parseSpawnOptions _ _).bind _ = _
    rw [hoptions]
    change (parseSessionFlags _ _).bind _ = _
    rw [parseSessionFlags_flagArgs, hfound]
    change (parseSessionFlags _ _).bind _ = _
    rw [parseSessionFlags_word hflag]
    rfl

end

/-! ## Reading the flags -/

def readOption {α : Type} (read : String → Except String α) : Option String →
    Except String (Option α)
  | none => .ok none
  | some text => (read text).map some

theorem readOption_some_iff {α : Type} {read : String → Except String α} {text : String} {a : α} :
    readOption read (some text) = .ok (some a) ↔ read text = .ok a := by
  rw [readOption]
  cases read text <;> simp [Except.map]

def setOption (flags : SessionFlags) (flag : SessionFlag) : Option String →
    Except String SessionFlags
  | none => .ok flags
  | some text => flags.set text flag

theorem setAll_option (start : SessionFlags) (flag : SessionFlag) (value : Option String)
    (values : List (SessionFlag × String)) :
    setAll start ((value.map (flag, ·)).toList ++ values) =
      (setOption start flag value).bind fun flags => setAll flags values := by
  cases value <;> rfl

theorem setOption_priority (value : Option String) :
    setOption {} .priority value =
      (readOption parsePriority value).map fun priority => { priority := priority } := by
  cases value with
  | none => rfl
  | some text =>
    simp only [setOption, SessionFlags.set, readOption]
    cases parsePriority text <;> rfl

theorem setOption_color (priority : Option Int64) (value : Option String) :
    setOption { priority := priority } .color value =
      (readOption parseColorMode value).map fun color => { priority := priority, color := color } := by
  cases value with
  | none => rfl
  | some text =>
    simp only [setOption, SessionFlags.set, readOption]
    cases parseColorMode text <;> rfl

theorem setAll_flagList (priority color name theme : Option String) :
    setAll {} (flagList priority color name theme) =
      (readOption parsePriority priority).bind fun priority =>
        (readOption parseColorMode color).bind fun color => .ok ⟨priority, color, name, theme⟩ := by
  have htokens : flagList priority color name theme =
      (priority.map (SessionFlag.priority, ·)).toList ++ ((color.map (SessionFlag.color, ·)).toList ++
        ((name.map (SessionFlag.name, ·)).toList ++
          ((theme.map (SessionFlag.theme, ·)).toList ++ []))) := by
    simp [flagList]
  simp only [htokens, setAll_option, setOption_priority]
  cases readOption parsePriority priority with
  | error e => rfl
  | ok priority =>
    simp only [Except.map, Except.bind, setOption_color]
    cases readOption parseColorMode color with
    | error e => rfl
    | ok color => cases name <;> cases theme <;> rfl

theorem parseColorMode_wireName (flag : ColorFlag) : parseColorMode flag.wireName = .ok flag := by
  rcases flag with _ | _ | c
  · decide
  · decide
  · cases c <;> decide

theorem toText_nat {n : Nat} (h : n ≤ 2 ^ 53) : (Double.finite n).toText = n.repr := by
  unfold Double.toText
  dsimp only
  rw [if_pos ⟨Rat.den_natCast n, by rwa [Rat.num_natCast]⟩, Rat.num_natCast]
  rfl

/-! ## The uplink -/

/-- The parsed command has the fields of the request, its color by name. -/
structure SameRequest (spawn : SpawnRequest) (s : SpawnCommand) : Prop where
  argv : s.argv = spawn.command
  headless : s.headless = spawn.headless
  cwd : s.cwd = some spawn.cwd
  cols : s.cols = some spawn.cols
  rows : s.rows = some spawn.rows
  name : s.name = spawn.name
  color : s.color.map ColorFlag.wireName = spawn.color
  priority : s.priority = spawn.priority
  theme : s.theme = none

def RequestSurvives (spawn : SpawnRequest) : Prop :=
  ∃ s, parseArgs (buildSpawnArgv spawn) = .ok (.spawn s) ∧ SameRequest spawn s

structure RequestFits (spawn : SpawnRequest) : Prop where
  command : Spared (requestFlags spawn) spawn.command
  color : ∀ text, spawn.color = some text → ∃ flag : ColorFlag, flag.wireName = text
  priority : ∀ priority, spawn.priority = some priority →
    0 ≤ priority.toInt ∧ priority.toInt ≤ 1000

theorem readOption_priority {priority : Option Int64}
    (h : ∀ p, priority = some p → 0 ≤ p.toInt ∧ p.toInt ≤ 1000) :
    readOption parsePriority (priority.map fun p => toString p.toInt) = .ok priority := by
  cases priority with
  | none => rfl
  | some p =>
    obtain ⟨hlow, hhigh⟩ := h p rfl
    obtain ⟨n, hn⟩ := Int.eq_ofNat_of_zero_le hlow
    have htext : toString p.toInt = n.repr := by
      rw [hn]
      rfl
    have hp : Int64.ofInt n = p := by rw [← hn, Int64.ofInt_toInt]
    rw [Option.map_some, htext, readOption_some_iff, parsePriority_repr (by omega), hp]

theorem requestSurvives_iff (spawn : SpawnRequest) :
    RequestSurvives spawn ↔ RequestFits spawn := by
  constructor
  · rintro ⟨s, hparse, hsame⟩
    obtain ⟨hspared, c, r, found, -, -, hfound, rfl⟩ :=
      parse_spawnTokens_iff.mp ⟨hparse, hsame.argv⟩
    rw [requestFlags, setAll_flagList] at hfound
    obtain ⟨priority, hpriority, hfound⟩ := bind_ok hfound
    obtain ⟨color, -, hfound⟩ := bind_ok hfound
    cases hfound
    refine ⟨hspared, fun text htext => ?_, fun p hp => ?_⟩
    · obtain ⟨flag, -, hflag⟩ := Option.map_eq_some_iff.mp (hsame.color.trans htext)
      exact ⟨flag, hflag⟩
    · have hread : priority = some p := hsame.priority.trans hp
      rw [hread, hp, Option.map_some, readOption_some_iff] at hpriority
      exact parsePriority_range hpriority
  · intro h
    have hcolor : ∃ color, readOption parseColorMode spawn.color = .ok color ∧
        color.map ColorFlag.wireName = spawn.color := by
      cases hspawn : spawn.color with
      | none => exact ⟨none, rfl, rfl⟩
      | some text =>
        obtain ⟨flag, rfl⟩ := h.color text hspawn
        refine ⟨some flag, ?_, rfl⟩
        rw [readOption_some_iff, parseColorMode_wireName]
    obtain ⟨color, hread, hnames⟩ := hcolor
    have hfound : setAll {} (requestFlags spawn) =
        .ok ⟨spawn.priority, color, spawn.name, none⟩ := by
      rw [requestFlags, setAll_flagList, readOption_priority h.priority, hread]
      rfl
    have hcols : parseU16 spawn.cols.toNat.repr = some spawn.cols := by
      rw [parseU16_repr spawn.cols.toNat_lt, UInt16.ofNat_toNat]
    have hrows : parseU16 spawn.rows.toNat.repr = some spawn.rows := by
      rw [parseU16_repr spawn.rows.toNat_lt, UInt16.ofNat_toNat]
    obtain ⟨hparse, -⟩ := parse_spawnTokens_iff.mpr
      ⟨h.command, spawn.cols, spawn.rows, _, hcols, hrows, hfound, rfl⟩
    exact ⟨_, hparse, rfl, rfl, rfl, rfl, rfl, rfl, hnames, rfl, rfl⟩

/-! ## The dashboard -/

/-- Null stands for the color "none". -/
structure SameInput (command : List String) (input : SpawnArgsInput) (s : SpawnCommand) : Prop where
  argv : s.argv = command
  headless : s.headless = input.headless
  cwd : s.cwd = some input.cwd
  cols : ∃ n : UInt16, s.cols = some n ∧ input.cols = .finite n.toNat
  rows : ∃ n : UInt16, s.rows = some n ∧ input.rows = .finite n.toNat
  name : s.name = input.options.name
  color : s.color = input.options.color.map fun color => color.getD .none
  priority : s.priority.map (fun priority => Double.finite priority.toInt) = input.options.priority
  theme : s.theme = input.options.theme

def InputSurvives (command : List String) (input : SpawnArgsInput) : Prop :=
  ∃ s, parseArgs (buildSpawnArgs command input) = .ok (.spawn s) ∧ SameInput command input s

structure InputFits (command : List String) (input : SpawnArgsInput) : Prop where
  command : Spared (metaFlags input.options) command
  cols : ∃ n : Nat, n < 2 ^ 16 ∧ input.cols = .finite n
  rows : ∃ n : Nat, n < 2 ^ 16 ∧ input.rows = .finite n
  priority : ∀ priority, input.options.priority = some priority →
    ∃ n : Nat, n ≤ 1000 ∧ priority = .finite n
  name : input.options.name ≠ some ""
  theme : input.options.theme ≠ some ""

theorem parseU16_toText {size : Double} (h : ∃ n : Nat, n < 2 ^ 16 ∧ size = .finite n) :
    ∃ n : UInt16, parseU16 size.toText = some n ∧ size = .finite n.toNat := by
  obtain ⟨n, hn, rfl⟩ := h
  refine ⟨UInt16.ofNat n, ?_, ?_⟩
  · rw [toText_nat (by omega), parseU16_repr hn]
  · rw [UInt16.toNat_ofNat', Nat.mod_eq_of_lt hn]

theorem readOption_number {priority : Option Double}
    (h : ∀ p, priority = some p → ∃ n : Nat, n ≤ 1000 ∧ p = .finite n) :
    ∃ found, readOption parsePriority (priority.map Double.toText) = .ok found ∧
      found.map (fun priority => Double.finite priority.toInt) = priority := by
  cases priority with
  | none => exact ⟨none, rfl, rfl⟩
  | some p =>
    obtain ⟨n, hn, rfl⟩ := h p rfl
    refine ⟨some (Int64.ofInt n), ?_, ?_⟩
    · rw [Option.map_some, toText_nat (by omega), readOption_some_iff, parsePriority_repr hn]
    · rw [Option.map_some, Int64.toInt_ofInt_of_le (by omega) (by omega)]
      rfl

theorem readOption_color (color : Option (Option ColorFlag)) :
    readOption parseColorMode (color.map fun color => (color.getD .none).wireName) =
      .ok (color.map fun color => color.getD .none) := by
  cases color with
  | none => rfl
  | some color =>
    rw [Option.map_some, Option.map_some, readOption_some_iff, parseColorMode_wireName]

theorem filter_nonempty {text : Option String} : text.filter (· ≠ "") = text ↔ text ≠ some "" := by
  cases text <;> simp [Option.filter]

theorem inputSurvives_iff (command : List String) (input : SpawnArgsInput) :
    InputSurvives command input ↔ InputFits command input := by
  constructor
  · rintro ⟨s, hparse, hsame⟩
    obtain ⟨hspared, c, r, found, -, -, hfound, rfl⟩ :=
      parse_spawnTokens_iff.mp ⟨hparse, hsame.argv⟩
    rw [metaFlags, setAll_flagList] at hfound
    obtain ⟨priority, hpriority, hfound⟩ := bind_ok hfound
    obtain ⟨color, -, hfound⟩ := bind_ok hfound
    cases hfound
    have hsize {size : Double} {parsed : Option UInt16}
        (h : ∃ n : UInt16, parsed = some n ∧ size = .finite n.toNat) :
        ∃ n : Nat, n < 2 ^ 16 ∧ size = .finite n := by
      obtain ⟨n, -, hn⟩ := h
      exact ⟨n.toNat, n.toNat_lt, hn⟩
    refine ⟨hspared, hsize hsame.cols, hsize hsame.rows, fun p hp => ?_,
      filter_nonempty.mp hsame.name, filter_nonempty.mp hsame.theme⟩
    rw [hp] at hpriority
    obtain ⟨q, hq, hfinite⟩ := Option.map_eq_some_iff.mp (hsame.priority.trans hp)
    dsimp only at hq
    rw [hq, Option.map_some, readOption_some_iff] at hpriority
    obtain ⟨hlow, hhigh⟩ := parsePriority_range hpriority
    refine ⟨q.toInt.toNat, by omega, ?_⟩
    rw [← hfinite]
    congr 1
    exact_mod_cast (Int.toNat_of_nonneg hlow).symm
  · intro h
    obtain ⟨cols, hcols, hcolsSize⟩ := parseU16_toText h.cols
    obtain ⟨rows, hrows, hrowsSize⟩ := parseU16_toText h.rows
    obtain ⟨priority, hpriority, hsame⟩ := readOption_number h.priority
    have hfound : setAll {} (metaFlags input.options) = .ok ⟨priority,
        input.options.color.map fun color => color.getD .none, input.options.name,
        input.options.theme⟩ := by
      rw [metaFlags, setAll_flagList, hpriority, readOption_color, filter_nonempty.mpr h.name,
        filter_nonempty.mpr h.theme]
      rfl
    obtain ⟨hparse, -⟩ := parse_spawnTokens_iff.mpr
      ⟨h.command, cols, rows, _, hcols, hrows, hfound, rfl⟩
    exact ⟨_, hparse, rfl, rfl, rfl, ⟨cols, rfl, hcolsSize⟩, ⟨rows, rfl, hrowsSize⟩, rfl, rfl,
      hsame, rfl⟩

/-- A request comes out as it went in exactly when its values are in range and the parser takes the
first word of its command for a word. -/
theorem spawn_args_survive_iff (spawn : SpawnRequest) (command : List String)
    (input : SpawnArgsInput) :
    (RequestSurvives spawn ↔ RequestFits spawn) ∧
      (InputSurvives command input ↔ InputFits command input) :=
  ⟨requestSurvives_iff spawn, inputSurvives_iff command input⟩

/-! ## A command that begins with a flag -/

def namedRequest : SpawnRequest :=
  ⟨"r1", ["--name", "x", "ls"], "/", 80, 24, none, none, none, true⟩

def headlessInput : SpawnArgsInput :=
  ⟨false, "/", .finite 80, .finite 24, none, none, none, none⟩

/-- The words of the command name the session, and take its window away. -/
theorem flag_taken :
    parseArgs (buildSpawnArgv namedRequest) =
      .ok (.spawn ⟨["ls"], true, some "/", some 80, some 24, some "x", none, none, none⟩) ∧
    ¬ RequestSurvives namedRequest ∧
    parseArgs (buildSpawnArgs ["--headless", "ls"] headlessInput) =
      .ok (.spawn ⟨["ls"], true, some "/", some 80, some 24, none, none, none, none⟩) ∧
    ¬ InputSurvives ["--headless", "ls"] headlessInput := by
  have hnamed : parseArgs (buildSpawnArgv namedRequest) =
      .ok (.spawn ⟨["ls"], true, some "/", some 80, some 24, some "x", none, none, none⟩) := by
    decide +kernel
  have hheadless : parseArgs (buildSpawnArgs ["--headless", "ls"] headlessInput) =
      .ok (.spawn ⟨["ls"], true, some "/", some 80, some 24, none, none, none, none⟩) := by
    decide +kernel
  refine ⟨hnamed, ?_, hheadless, ?_⟩
  · rintro ⟨s, hparse, hsame⟩
    rw [hnamed] at hparse
    cases hparse
    exact absurd hsame.argv (by decide)
  · rintro ⟨s, hparse, hsame⟩
    rw [hheadless] at hparse
    cases hparse
    exact absurd hsame.argv (by decide)

end Climon.Cli.SpawnRoundTrip
