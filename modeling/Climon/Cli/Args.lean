import Climon.Lib.DecimalText
import Climon.Proto.Meta

namespace Climon.Cli.Args

open Climon.Lib.DecimalText Climon.Lib.JavaScript Climon.Lib.JsonAgreement Climon.Lib.Utf16
  Climon.Proto.Meta

/-!
# Command line arguments

The client's parser, written by hand for its bare-flag rules and its hidden entry points. An
argument list is what follows the program's name.
-/

inductive ColorFlag where
  | none
  | auto
  | color (c : AnsiColor)
  deriving DecidableEq, Repr

def ColorFlag.wireName : ColorFlag → String
  | .none => "none"
  | .auto => "auto"
  | .color c => c.name

/-- What `__spawn` is asked for. -/
structure SpawnCommand where
  argv : List String
  headless : Bool
  cwd : Option String
  cols : Option UInt16
  rows : Option UInt16
  name : Option String
  color : Option ColorFlag
  priority : Option Int64
  theme : Option String
  deriving DecidableEq, Repr

structure SessionFlags where
  priority : Option Int64 := none
  color : Option ColorFlag := none
  name : Option String := none
  theme : Option String := none
  deriving DecidableEq, Repr

/-- A port of `none` inside is not a number. -/
inductive ParsedCommand where
  | help (implicit : Bool)
  | version
  | shell (flags : SessionFlags)
  | server (port : Option (Option Double)) (noTakeover : Bool)
  | ls
  | kill (id : String)
  | killAll
  | run (argv : List String) (headless : Bool) (flags : SessionFlags)
  | spawn (command : SpawnCommand)
  | config (argv : List String)
  | link (argv : List String)
  | uplink
  | session (id : String)
  | cleanup
  | remotes (watch json : Bool)
  | update (argv : List String)
  | setup (argv : List String)
  | updateCheck
  | ingest
  | license
  deriving DecidableEq, Repr

/-! ## Values -/

/-- Unicode white space. -/
def isWhitespace (c : Char) : Bool :=
  let n := c.toNat
  (0x09 ≤ n && n ≤ 0x0D) || (0x2000 ≤ n && n ≤ 0x200A) ||
    [0x20, 0x85, 0xA0, 0x1680, 0x2028, 0x2029, 0x202F, 0x205F, 0x3000].contains n

def trim (text : String) : String :=
  String.ofList ((text.toList.dropWhile isWhitespace).reverse.dropWhile isWhitespace).reverse

def toAsciiLowercase (text : String) : String := String.ofList (text.toList.map Char.toLower)

/-- `str::parse::<f64>`; `none` for what is not a number, be it `nan` or no number at all. -/
def parseF64 (text : String) : Option Double :=
  let unsigned (negative : Bool) (digits : List Char) : Option Double :=
    let lower := toAsciiLowercase (String.ofList digits)
    if lower = "inf" ∨ lower = "infinity" then some (.infinite negative)
    else (unsignedDecimal (encode (String.ofList digits))).map fun q =>
      toDouble (if negative then -q else q)
  match text.toList with
  | '-' :: digits => unsigned true digits
  | '+' :: digits => unsigned false digits
  | digits => unsigned false digits

def jsNumber (value : String) : Option Double :=
  let trimmed := trim value
  if trimmed = "" then some (.finite 0) else parseF64 trimmed

def priorityError (range value : String) : String :=
  "Priority must be " ++ range ++ "between 0 and 1000 (got \"" ++ value ++ "\")."

def parsePriority (value : String) : Except String Int64 :=
  match jsNumber value with
  | some (.finite q) =>
    if q.den ≠ 1 then .error (priorityError "an integer " value)
    else if ¬ (0 ≤ q ∧ q ≤ 1000) then .error (priorityError "" value)
    else .ok (Int64.ofInt q.num)
  | _ => .error (priorityError "an integer " value)

def parseColorMode (value : String) : Except String ColorFlag :=
  let normalized := toAsciiLowercase (trim value)
  if normalized = "auto" then .ok .auto
  else if normalized = "none" then .ok .none
  else
    match ofName AnsiColor.all AnsiColor.name normalized with
    | some color => .ok (.color color)
    | none => .error ("Color must be one of: auto, none, black, red, green, yellow, blue, magenta, " ++
        "cyan, white (got \"" ++ value ++ "\").")

/-- `str::parse::<u16>` -/
def parseU16 (text : String) : Option UInt16 :=
  let digits :=
    match text.toList with
    | '+' :: digits => digits
    | digits => digits
  if digits ≠ [] ∧ digits.all Char.isDigit ∧ Nat.ofDigitChars 10 digits 0 < 2 ^ 16 then
    some (UInt16.ofNat (Nat.ofDigitChars 10 digits 0))
  else none

/-! ## Session flags -/

inductive SessionFlag where
  | priority
  | color
  | name
  | theme
  deriving DecidableEq, Repr

def SessionFlag.all : List SessionFlag := [.priority, .color, .name, .theme]

def SessionFlag.key : SessionFlag → String
  | .priority => "--priority"
  | .color => "--color"
  | .name => "--name"
  | .theme => "--theme"

def SessionFlags.set (flags : SessionFlags) (value : String) :
    SessionFlag → Except String SessionFlags
  | .priority => (parsePriority value).map fun priority => { flags with priority := some priority }
  | .color => (parseColorMode value).map fun color => { flags with color := some color }
  | .name => .ok { flags with name := some value }
  | .theme => .ok { flags with theme := some value }

/-- A token of the form `--key=value` has its value inline. -/
def splitKey (token : String) : String × Option String :=
  if "--".toList.isPrefixOf token.toList ∧ '=' ∈ token.toList then
    (String.ofList (token.toList.takeWhile (· != '=')),
      some (String.ofList (token.toList.dropWhile (· != '=')).tail))
  else (token, none)

/-- The flag that a token in front of a command sets. -/
def sessionFlag (token : String) : Option SessionFlag :=
  ofName SessionFlag.all SessionFlag.key (splitKey token).1

/-- The flags in front, and what follows them. -/
def parseSessionFlags (flags : SessionFlags) :
    List String → Except String (SessionFlags × List String)
  | [] => .ok (flags, [])
  | token :: rest =>
    match sessionFlag token, (splitKey token).2, rest with
    | none, _, _ => .ok (flags, token :: rest)
    | some flag, some value, rest =>
      (flags.set value flag).bind fun flags => parseSessionFlags flags rest
    | some flag, none, [] => .error ("Missing value for " ++ flag.key ++ ".")
    | some flag, none, value :: rest =>
      (flags.set value flag).bind fun flags => parseSessionFlags flags rest

/-! ## The options of `__spawn` -/

structure SpawnOptions where
  headless : Bool := false
  cwd : Option String := none
  cols : Option UInt16 := none
  rows : Option UInt16 := none
  deriving DecidableEq, Repr

def parseSize (key value : String) : Except String UInt16 :=
  match parseU16 value with
  | some n => .ok n
  | none => .error ("Invalid " ++ key ++ ".")

/-- The options in front. The first other token ends them. -/
def parseSpawnOptions (options : SpawnOptions) :
    List String → Except String (SpawnOptions × List String)
  | [] => .ok (options, [])
  | token :: rest =>
    if token = "--headless" then parseSpawnOptions { options with headless := true } rest
    else if token = "--cwd" then
      match rest with
      | [] => .error "Missing value for --cwd."
      | value :: rest => parseSpawnOptions { options with cwd := some value } rest
    else if token = "--cols" then
      match rest with
      | [] => .error "Missing value for --cols."
      | value :: rest => (parseSize "--cols" value).bind fun cols =>
          parseSpawnOptions { options with cols := some cols } rest
    else if token = "--rows" then
      match rest with
      | [] => .error "Missing value for --rows."
      | value :: rest => (parseSize "--rows" value).bind fun rows =>
          parseSpawnOptions { options with rows := some rows } rest
    else .ok (options, token :: rest)

/-! ## The command -/

def parseSpawn (tokens : List String) : Except String ParsedCommand :=
  (parseSpawnOptions {} tokens).bind fun (options, rest) =>
    (parseSessionFlags {} rest).bind fun (flags, argv) =>
      if argv.isEmpty then .error "Provide a command to spawn, e.g. `climon __spawn npm test`."
      else .ok (.spawn ⟨argv, options.headless, options.cwd, options.cols, options.rows, flags.name,
        flags.color, flags.priority, flags.theme⟩)

def parseServer (port : Option (Option Double)) (noTakeover : Bool) : List String → ParsedCommand
  | [] => .server port noTakeover
  | token :: rest =>
    if token = "--port" then
      match rest with
      | [] => .server (some (jsNumber "")) noTakeover
      | value :: rest => parseServer (some (jsNumber value)) noTakeover rest
    else
      match splitKey token with
      | ("--port", some value) => parseServer (some (jsNumber value)) noTakeover rest
      | _ => parseServer port (noTakeover || token = "--no-takeover") rest

def parseRemotes (watch json : Bool) : List String → Except String ParsedCommand
  | [] => .ok (.remotes watch json)
  | token :: rest =>
    if token = "--watch" ∨ token = "-w" then parseRemotes true json rest
    else if token = "--json" then parseRemotes watch true rest
    else .error ("Unknown flag for remotes: " ++ token)

/-- Flags and a command. -/
def parseRun (headless : Bool) (sample : String) (tokens : List String) :
    Except String ParsedCommand :=
  (parseSessionFlags {} tokens).bind fun (flags, argv) =>
    if argv.isEmpty then .error ("Provide a command to run, e.g. `" ++ sample ++ "`.")
    else .ok (.run argv headless flags)

def parseArgs : List String → Except String ParsedCommand
  | [] => .ok (.help true)
  | first :: rest =>
    if "--".toList.isPrefixOf first.toList ∧ first ∉ ["--help", "--version", "--update"] then
      (parseSessionFlags {} (first :: rest)).map fun (flags, argv) =>
        if argv.isEmpty then .help true else .run argv false flags
    else
      match first with
      | "help" | "--help" | "-h" => .ok (.help false)
      | "--version" | "-v" => .ok .version
      | "--update" | "update" => .ok (.update rest)
      | "setup" => .ok (.setup rest)
      | "__update-check" => .ok .updateCheck
      | "server" => .ok (parseServer none false rest)
      | "ls" | "list" => .ok .ls
      | "shell" =>
        (parseSessionFlags {} rest).bind fun (flags, extra) =>
          if extra.isEmpty then .ok (.shell flags)
          else .error ("`climon shell` does not take a command; " ++
            "use `climon <command>` to run one.")
      | "kill" =>
        match rest with
        | "--all" :: _ => .ok .killAll
        | id :: _ => .ok (.kill id)
        | [] => .error "Provide a session id, e.g. `climon kill <id>`."
      | "run" =>
        parseRun (rest.head? = some "--headless") "climon run npm test"
          (rest.dropWhile (· == "--headless"))
      | "command" => parseRun false "climon command shell" rest
      | "__spawn" => parseSpawn rest
      | "config" => .ok (.config rest)
      | "cleanup" => .ok .cleanup
      | "remotes" => parseRemotes false false rest
      | "link" => .ok (.link rest)
      | "__uplink" => .ok .uplink
      | "__ingest" => .ok .ingest
      | "license" | "licenses" => .ok .license
      | "__session" =>
        match rest with
        | [id] => .ok (.session id)
        | _ => .error "Provide a session id, e.g. `climon __session <id>`."
      | _ => parseRun false "climon npm test" (first :: rest)

/-! ## Reading numbers back -/

section

variable {digits : List Char}

theorem digit_not_whitespace {c : Char} (h : c.isDigit = true) : isWhitespace c = false := by
  have hbound := toNat_digit h
  simp only [isWhitespace, Bool.or_eq_false_iff, Bool.and_eq_false_iff, decide_eq_false_iff_not]
  refine ⟨⟨by omega, by omega⟩, ?_⟩
  simp only [List.contains_eq_mem, List.mem_cons, List.not_mem_nil, or_false,
    decide_eq_false_iff_not]
  omega

theorem dropWhile_solid {chars : List Char} (h : ∀ c ∈ chars, isWhitespace c = false) :
    chars.dropWhile isWhitespace = chars := by
  cases chars with
  | nil => rfl
  | cons c chars =>
    rw [List.dropWhile_cons, h c List.mem_cons_self]
    rfl

theorem trim_solid {chars : List Char} (h : ∀ c ∈ chars, isWhitespace c = false) :
    trim (String.ofList chars) = String.ofList chars := by
  have hreverse : ∀ c ∈ chars.reverse, isWhitespace c = false := fun c hc =>
    h c (List.mem_reverse.mp hc)
  rw [trim, String.toList_ofList, dropWhile_solid h, dropWhile_solid hreverse,
    List.reverse_reverse]

theorem parseF64_digits (h : ∀ c ∈ digits, c.isDigit = true) (hne : digits ≠ []) :
    parseF64 (String.ofList digits) = some (toDouble (Nat.ofDigitChars 10 digits 0)) := by
  cases digits with
  | nil => exact absurd rfl hne
  | cons c digits =>
    have hbound := toNat_digit (h c List.mem_cons_self)
    have hlower : c.toLower = c := by
      unfold Char.toLower
      rw [dif_neg]
      intro hupper
      have hlow : 65 ≤ c.toNat := hupper.1
      omega
    have hword (word : String) (hword : word.toList.head? = some 'i') :
        toAsciiLowercase (String.ofList (c :: digits)) ≠ word := by
      rintro rfl
      rw [toAsciiLowercase, String.toList_ofList, String.toList_ofList, List.map_cons,
        List.head?_cons, hlower] at hword
      cases hword
      exact absurd hbound (by decide)
    have hminus : c ≠ '-' := by
      rintro rfl
      exact absurd hbound (by decide)
    have hplus : c ≠ '+' := by
      rintro rfl
      exact absurd hbound (by decide)
    unfold parseF64
    rw [String.toList_ofList]
    split
    next heq => exact absurd (List.cons.inj heq).1 hminus
    next heq => exact absurd (List.cons.inj heq).1 hplus
    next =>
      dsimp only
      rw [if_neg (not_or.mpr ⟨hword "inf" rfl, hword "infinity" rfl⟩),
        unsignedDecimal_digits h hne]
      rfl

theorem jsNumber_repr {n : Nat} (h : n < 2 ^ 53) : jsNumber n.repr = some (.finite n) := by
  have hdigits := digits_repr n
  have htext : n.repr = String.ofList n.repr.toList := String.ofList_toList.symm
  have hempty : n.repr ≠ "" := Nat.repr_ne_empty
  unfold jsNumber
  rw [htext, trim_solid fun c hc => digit_not_whitespace (hdigits c hc), ← htext, if_neg hempty, htext,
    parseF64_digits hdigits (repr_ne_nil n), ofDigitChars_repr]
  exact congrArg some (toDouble_int (n := n) h)

/-- Only numbers in the range are accepted. -/
theorem parsePriority_range {value : String} {priority : Int64}
    (h : parsePriority value = .ok priority) : 0 ≤ priority.toInt ∧ priority.toInt ≤ 1000 := by
  unfold parsePriority at h
  split at h
  next q hq =>
    split at h
    · cases h
    next hden =>
      split at h
      · cases h
      next hrange =>
        cases h
        obtain ⟨hlow, hhigh⟩ := not_not.mp hrange
        have hnum : (q.num : Rat) = q := Rat.coe_int_num_of_den_eq_one (not_not.mp hden)
        rw [← hnum] at hlow hhigh
        have hlow : 0 ≤ q.num := by exact_mod_cast hlow
        have hhigh : q.num ≤ 1000 := by exact_mod_cast hhigh
        rw [Int64.toInt_ofInt_of_le (by omega) (by omega)]
        exact ⟨hlow, hhigh⟩
  · cases h

theorem parsePriority_repr {n : Nat} (h : n ≤ 1000) :
    parsePriority n.repr = .ok (Int64.ofInt n) := by
  have hrange : (0 : Rat) ≤ n ∧ (n : Rat) ≤ 1000 := by exact_mod_cast And.intro n.zero_le h
  unfold parsePriority
  rw [jsNumber_repr (by omega)]
  simp [hrange]

theorem parseU16_repr {n : Nat} (h : n < 2 ^ 16) : parseU16 n.repr = some (UInt16.ofNat n) := by
  have hdigits := digits_repr n
  have hne := repr_ne_nil n
  have hplus : ∀ digits, n.repr.toList ≠ '+' :: digits := by
    intro digits heq
    have hbad := hdigits '+' (heq ▸ List.mem_cons_self)
    cases hbad
  unfold parseU16
  simp only [ofDigitChars_repr]
  rw [if_pos ⟨hne, List.all_eq_true.mpr hdigits, h⟩]

end

/-! ## How the parser goes -/

section

variable {flags flags' : SessionFlags} {options options' : SpawnOptions} {tokens rest : List String}

theorem bind_ok {α β ε : Type} {x : Except ε α} {f : α → Except ε β} {b : β}
    (h : x.bind f = .ok b) : ∃ a, x = .ok a ∧ f a = .ok b := by
  cases x with
  | error e => cases h
  | ok a => exact ⟨a, rfl, h⟩

/-- A flag as a key and a value. -/
theorem parseSessionFlags_key (flag : SessionFlag) (value : String) :
    parseSessionFlags flags (flag.key :: value :: rest) =
      (flags.set value flag).bind fun flags => parseSessionFlags flags rest := by
  cases flag <;> rfl

theorem parseSessionFlags_word {word : String} (h : sessionFlag word = none) :
    parseSessionFlags flags (word :: rest) = .ok (flags, word :: rest) := by
  rw [parseSessionFlags.eq_def]
  simp only [h]

/-- What follows the flags is the end of the arguments. -/
theorem parseSessionFlags_length (h : parseSessionFlags flags tokens = .ok (flags', rest)) :
    rest.length ≤ tokens.length := by
  induction flags, tokens using parseSessionFlags.induct with
  | case1 flags =>
    cases h
    exact Nat.le_refl _
  | case2 flags token tail hflag =>
    rw [parseSessionFlags_word hflag] at h
    cases h
    exact Nat.le_refl _
  | case3 flags token tail flag value hflag hinline ih =>
    rw [parseSessionFlags.eq_def] at h
    simp only [hflag, hinline] at h
    obtain ⟨next, -, hnext⟩ := bind_ok h
    exact Nat.le_succ_of_le (ih next hnext)
  | case4 flags token flag hflag hinline =>
    rw [parseSessionFlags.eq_def] at h
    simp only [hflag, hinline] at h
    cases h
  | case5 flags token flag value tail hflag hinline ih =>
    rw [parseSessionFlags.eq_def] at h
    simp only [hflag, hinline] at h
    obtain ⟨next, -, hnext⟩ := bind_ok h
    exact Nat.le_trans (ih next hnext) (Nat.le_add_right _ 2)

/-- A flag in front is not part of what follows. -/
theorem parseSessionFlags_flag {token : String} (hflag : (sessionFlag token).isSome)
    (h : parseSessionFlags flags (token :: tokens) = .ok (flags', rest)) :
    rest.length ≤ tokens.length := by
  obtain ⟨flag, hflag⟩ := Option.isSome_iff_exists.mp hflag
  rw [parseSessionFlags.eq_def] at h
  simp only [hflag] at h
  split at h
  next hnone => cases hnone
  next =>
    obtain ⟨next, -, hnext⟩ := bind_ok h
    exact parseSessionFlags_length hnext
  next => cases h
  next =>
    obtain ⟨next, -, hnext⟩ := bind_ok h
    exact Nat.le_succ_of_le (parseSessionFlags_length hnext)

theorem parseArgs_spawn : parseArgs ("__spawn" :: tokens) = parseSpawn tokens := by
  delta parseArgs
  exact if_neg (by decide)

/-- The keys of the options of `__spawn`. -/
def spawnOptions : List String := ["--headless", "--cwd", "--cols", "--rows"]

theorem parseSpawnOptions_word {word : String} (h : word ∉ spawnOptions) :
    parseSpawnOptions options (word :: rest) = .ok (options, word :: rest) := by
  simp only [spawnOptions, List.mem_cons, List.not_mem_nil, or_false, not_or] at h
  obtain ⟨hheadless, hcwd, hcols, hrows⟩ := h
  rw [parseSpawnOptions.eq_def]
  simp only [hheadless, hcwd, hcols, hrows, if_false]

@[simp] theorem parseSpawnOptions_headless :
    parseSpawnOptions options ("--headless" :: rest) =
      parseSpawnOptions { options with headless := true } rest := by
  rw [parseSpawnOptions.eq_def]
  simp

@[simp] theorem parseSpawnOptions_cwd (value : String) :
    parseSpawnOptions options ("--cwd" :: value :: rest) =
      parseSpawnOptions { options with cwd := some value } rest := by
  rw [parseSpawnOptions.eq_def]
  simp

@[simp] theorem parseSpawnOptions_cols (value : String) :
    parseSpawnOptions options ("--cols" :: value :: rest) =
      (parseSize "--cols" value).bind fun cols =>
        parseSpawnOptions { options with cols := some cols } rest := by
  rw [parseSpawnOptions.eq_def]
  simp

@[simp] theorem parseSpawnOptions_rows (value : String) :
    parseSpawnOptions options ("--rows" :: value :: rest) =
      (parseSize "--rows" value).bind fun rows =>
        parseSpawnOptions { options with rows := some rows } rest := by
  rw [parseSpawnOptions.eq_def]
  simp

theorem parseSpawnOptions_length (h : parseSpawnOptions options tokens = .ok (options', rest)) :
    rest.length ≤ tokens.length := by
  induction options, tokens using parseSpawnOptions.induct with
  | case1 options =>
    cases h
    exact Nat.le_refl _
  | case2 options tail ih =>
    rw [parseSpawnOptions_headless] at h
    exact Nat.le_succ_of_le (ih h)
  | case3 | case5 | case7 => cases h
  | case4 options value tail _ ih =>
    rw [parseSpawnOptions_cwd] at h
    exact Nat.le_trans (ih h) (Nat.le_add_right _ 2)
  | case6 options value tail _ _ ih =>
    rw [parseSpawnOptions_cols] at h
    obtain ⟨cols, -, hnext⟩ := bind_ok h
    exact Nat.le_trans (ih cols hnext) (Nat.le_add_right _ 2)
  | case8 options value tail _ _ _ ih =>
    rw [parseSpawnOptions_rows] at h
    obtain ⟨rows, -, hnext⟩ := bind_ok h
    exact Nat.le_trans (ih rows hnext) (Nat.le_add_right _ 2)
  | case9 options token tail hheadless hcwd hcols hrows =>
    rw [parseSpawnOptions_word (by simp [spawnOptions, hheadless, hcwd, hcols, hrows])] at h
    cases h
    exact Nat.le_refl _

/-- An option in front is not part of what follows. -/
theorem parseSpawnOptions_option {token : String} (htoken : token ∈ spawnOptions)
    (h : parseSpawnOptions options (token :: tokens) = .ok (options', rest)) :
    rest.length ≤ tokens.length := by
  simp only [spawnOptions, List.mem_cons, List.not_mem_nil, or_false] at htoken
  rcases htoken with rfl | rfl | rfl | rfl
  · rw [parseSpawnOptions_headless] at h
    exact parseSpawnOptions_length h
  all_goals cases tokens with
    | nil => cases h
    | cons value tail => ?_
  · rw [parseSpawnOptions_cwd] at h
    exact Nat.le_succ_of_le (parseSpawnOptions_length h)
  · rw [parseSpawnOptions_cols] at h
    obtain ⟨cols, -, hnext⟩ := bind_ok h
    exact Nat.le_succ_of_le (parseSpawnOptions_length hnext)
  · rw [parseSpawnOptions_rows] at h
    obtain ⟨rows, -, hnext⟩ := bind_ok h
    exact Nat.le_succ_of_le (parseSpawnOptions_length hnext)

end

end Climon.Cli.Args
