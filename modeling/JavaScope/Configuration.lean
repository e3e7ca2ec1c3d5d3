import JavaScope.Fault

/-!
# Configuration

The modes that a parser tries, in their order, the source level, and whether statements with syntax
errors are accepted. Settings come by value or as texts from an environment.
-/

namespace JavaScope

/-- The modes of a parser, of which there is at least one and none twice, and its settings. -/
structure Configuration where
  modes : List Mode
  sourceLevel : String
  toleratesErrors : Bool
  deriving DecidableEq, Repr

namespace Configuration

/-- The modes that are tried unless the configuration says otherwise. -/
def defaultModes : List Mode :=
  [.compilationUnit, .typeBody, .statements]

/-- The configuration with these settings. -/
def of? (modes : List Mode) (sourceLevel : String) (toleratesErrors : Bool) :
    Except Fault Configuration :=
  if modes.isEmpty then .error .noModes
  else if modes.Nodup then .ok ⟨modes, sourceLevel, toleratesErrors⟩
  else .error (.repeatedModes modes)

/-- The configuration without any setting. -/
def standard : Configuration :=
  ⟨defaultModes, "8", true⟩

/-- The mode of a name. -/
def mode? (name : String) : Except Fault Mode :=
  match Mode.ofName? name with
  | some mode => .ok mode
  | none => .error (.unknownMode name)

/-- The pieces of a text between its commas. -/
def commaParts : List Char → List (List Char)
  | [] => [[]]
  | c :: text =>
    if c == ',' then [] :: commaParts text
    else match commaParts text with
      | [] => [[c]]
      | part :: parts => (c :: part) :: parts

/-- The modes that a setting lists; blank pieces do not count, and an empty setting stands for the
default. -/
def readModes (setting : String) : Except Fault (List Mode) :=
  if setting.isEmpty then .ok defaultModes
  else ((commaParts setting.toList).filter fun part => !Text.isBlankText part).mapM fun part =>
    match Mode.ofName? (String.ofList part) with
    | some mode => .ok mode
    | none => .error (.unknownModeSetting (String.ofList part))

/-- The truth value that a setting spells, in any case and between blanks. -/
def readBool (setting value : String) : Except Fault Bool :=
  let word := String.ofList ((Text.strip value.toList).map Char.toLower)
  if ["1", "true", "yes", "on"].contains word then .ok true
  else if ["0", "false", "no", "off"].contains word then .ok false
  else .error (.notBoolean setting value)

/-- The configuration that an environment describes. -/
def ofEnvironment (lookup : String → Option String) : Except Fault Configuration := do
  let modes ← readModes ((lookup "CODE_UNITS_PARSE_MODES").getD "")
  let setting := "CODE_UNITS_TOLERATE_STATEMENT_ERRORS"
  let tolerates ← readBool setting ((lookup setting).getD "true")
  of? modes ((lookup "CODE_UNITS_SOURCE_LEVEL").getD "8") tolerates

/-- The text of the list of modes. -/
def display (c : Configuration) : String :=
  "JavaParser(modes=" ++ Text.quotedList (c.modes.map Mode.name) ++ ")"

example : of? defaultModes "8" true = .ok standard := rfl

end Configuration

end JavaScope
