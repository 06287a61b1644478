import SideEffectLint.CommandLine.Fault
import SideEffectLint.CommandLine.Similarity
import SideEffectLint.Path.Basic

/-!
Reading the words of a command line. A word that starts with a dash is an option, unless two dashes
by themselves come before it. Words need not be texts, but those that have a meaning are.
-/

namespace SideEffectLint.CommandLine

inductive Format where
  | text
  | json
deriving Repr, DecidableEq, Inhabited

inductive Command where
  | analyze (path : SystemText) (format : Option Format) (settings : Option SystemText)
  | validate (settings : Option SystemText)
  | showSettings (settings : Option SystemText)
deriving Repr, DecidableEq, Inhabited

/-- Why words give no command. -/
inductive Refusal where
  | help (form : Form) (asked : Bool)
  | version
  | fault (f : UsageFault)
deriving Repr, DecidableEq, Inhabited

/-- The parameters read so far with their values. The last one waits to be checked, or still for
its value. -/
structure Given where
  checked : List (Parameter × SystemText)
  waiting : Option (Parameter × Option SystemText)
deriving Repr, DecidableEq, Inhabited

namespace Given

def used (g : Given) : List Parameter :=
  g.checked.map Prod.fst

def value? (g : Given) (p : Parameter) : Option SystemText :=
  (g.checked.find? (·.1 = p)).map Prod.snd

/-- What the parameter that waits is found to be. -/
def check (g : Given) : Except Cause Given :=
  match g.waiting with
  | none => .ok g
  | some (p, none) => .error (.missingValue p)
  | some (p, some value) =>
    if g.used.contains p then .error (.repeated p)
    else if value = "" then .error (.missingValue p)
    else if p.choices.isEmpty || p.choices.contains value.shown then
      .ok ⟨g.checked ++ [(p, value)], none⟩
    else .error (.wrongValue p value.shown (similarWords value.shown p.choices).getLast?)

/-- The parameters used, with the one that waits if it has a value. -/
private def usedAtAll (g : Given) : List Parameter :=
  match g.waiting with
  | some (p, some _) => if g.used.contains p then g.used else g.used ++ [p]
  | _ => g.used

end Given

namespace Form

private def refuse {α : Type} (f : Form) (used : List Parameter) (cause : Cause) :
    Except Refusal α :=
  .error (.fault ⟨f, used, cause⟩)

private def check (f : Form) (g : Given) : Except Refusal Given :=
  g.check.mapError fun cause => .fault ⟨f, [], cause⟩

private def runFlag {α : Type} (f : Form) (name : String) : Except Refusal α :=
  .error (if name = "version" then .version else .help f true)

/-- An option of this command, or of one that is named among the words that are left. -/
private def similarOption (f : Form) (name : String) (rest : List SystemText) : Option Similar :=
  match (similarWords name f.longNames).getLast? with
  | some known => some (.option known)
  | none =>
    let found := f.inner.filterMap fun (command, form) => do
      let known ← (similarWords name form.longNames).getLast?
      let place ← rest.findIdx? (· = .ofString command)
      pure (place, Similar.optionOf command known)
    (found.mergeSort (·.1 ≤ ·.1)).head?.map Prod.snd

/-- Refuses an option that the command does not have. -/
private def refuseOption {α : Type} (f : Form) (g : Given) (name : String) (rest : List SystemText) :
    Except Refusal α :=
  let similar := f.similarOption name rest
  let used := g.usedAtAll
  let used := match similar with
    | some (.option known) =>
      used ++ f.parameters.filter fun p => p.longName? = some known && !used.contains p
    | _ => used
  f.refuse used (.unknownArgument ("--" ++ name) (similar.isNone && f.takesPosition) similar)

/-- The name of a long option, and the value behind its equals sign if there is one. -/
private def splitOption (word : SystemText) : String × Option SystemText :=
  let bs := word.bytes.drop 2
  let name : SystemText := ⟨bs.takeWhile (· != '='.toUInt8)⟩
  match bs.dropWhile (· != '='.toUInt8) with
  | _ :: value => (name.shown, some ⟨value⟩)
  | [] => (name.shown, none)

/-- Takes a long option into what is given; it may wait for its value. -/
private def takeOption (f : Form) (g : Given) (word : SystemText) (rest : List SystemText) :
    Except Refusal Given := do
  let (name, value) := splitOption word
  match f.parameters.find? (·.longName? = some name), value with
  | some (.flag name), none => do
    let _ ← f.check g
    f.runFlag name
  | some (.flag name), some value =>
    f.refuse (g.usedAtAll ++ [.flag name]) (.needlessValue (.flag name) value.shown)
  | some p, none => return { ← f.check g with waiting := some (p, none) }
  | some p, some value => f.check { ← f.check g with waiting := some (p, some value) }
  | none, _ => f.refuseOption g name rest

/-- A word that starts with one dash runs the flag that its first letter stands for. -/
private def takeLetter {α : Type} (f : Form) (g : Given) (word : SystemText) : Except Refusal α := do
  let letter := (word.shown.toList.drop 1).take 1
  match f.longNames.find? fun name => letter = ['h'] && name = "help" ||
      letter = ['V'] && name = "version" with
  | some name => do
    let _ ← f.check g
    f.runFlag name
  | none => f.refuse [] (.unknownArgument (String.ofList ('-' :: letter)) f.takesPosition none)

/-- Takes a word that is no option. -/
private def takeWord (f : Form) (g : Given) (word : SystemText) (afterDashes : Bool) :
    Except Refusal Given := do
  match g.waiting, afterDashes with
  | some (p, none), false => return { g with waiting := some (p, some word) }
  | _, _ =>
    match f.parameters.find? fun p => p.isPosition && !g.usedAtAll.contains p with
    | some p => return { ← f.check g with waiting := some (p, some word) }
    | none => f.refuse [] (.unknownArgument word.shown false none)

/-- The parameters that words give to a command which is not divided further. -/
def readParameters (f : Form) : List SystemText → Bool → Given → Except Refusal Given
  | [], _, g => f.check g
  | word :: rest, afterDashes, g => do
    if afterDashes then f.readParameters rest true (← f.takeWord g word true)
    else if word = "--" then f.readParameters rest true g
    else if word.shown.startsWith "--" then
      f.readParameters rest false (← f.takeOption g word rest)
    else if word.shown.startsWith "-" && word.shown != "-" then f.takeLetter g word
    else f.readParameters rest false (← f.takeWord g word false)

/-- The first word, which has to name a command, and the words behind it. -/
def readCommand (f : Form) : List SystemText → Except Refusal (String × List SystemText)
  | [] => .error (.help f false)
  | word :: rest =>
    let shown := word.shown
    if word = "--" then
      match rest with
      | [] => .error (.help f false)
      | late :: _ =>
        if f.commands.contains late.shown then f.refuse [] (.lateCommand late.shown)
        else f.refuse [] (.unknownCommand late.shown (similarWords late.shown f.commands))
    else if f.commands.contains shown then .ok (shown, rest)
    else if shown.startsWith "--" then do
      let _ ← f.takeOption ⟨[], none⟩ word rest
      .error (.help f false)
    else if shown.startsWith "-" && shown != "-" then f.takeLetter ⟨[], none⟩ word
    else f.refuse [] (.unknownCommand shown (similarWords shown f.commands))

/-- Help for the command of `f` that the words lead to, from the form that has been reached. -/
private def helpFor {α : Type} (f : Form) : Form → List SystemText → Except Refusal α
  | reached, [] => .error (.help reached true)
  | reached, word :: rest =>
    match reached.inner.lookup word.shown with
    | some next => f.helpFor next rest
    | none => f.refuse [] (.unknownCommand word.shown [])

/-- What the command `help` of a form does with the words behind it. -/
def readHelp {α : Type} (f : Form) (words : List SystemText) : Except Refusal α :=
  f.helpFor f words

end Form

namespace Command

private def noneGiven : Given :=
  ⟨[], none⟩

private def readAnalyze (words : List SystemText) : Except Refusal Command := do
  let g ← Form.analyze.readParameters words false noneGiven
  return .analyze ((g.value? Form.path).getD "./src")
    ((g.value? Form.format).map fun name => if name = .ofString "json" then .json else .text)
    (g.value? Form.settingsPath)

private def readConfig (words : List SystemText) : Except Refusal Command := do
  match ← Form.config.readCommand words with
  | ("validate", rest) =>
    return .validate ((← Form.validate.readParameters rest false noneGiven).value? Form.shownPath)
  | ("show", rest) =>
    return .showSettings
      ((← Form.showSettings.readParameters rest false noneGiven).value? Form.shownPath)
  | (_, rest) => Form.config.readHelp rest

def ofWords (words : List SystemText) : Except Refusal Command := do
  match ← Form.program.readCommand words with
  | ("analyze", rest) => readAnalyze rest
  | ("config", rest) => readConfig rest
  | (_, rest) => Form.program.readHelp rest

end Command

end SideEffectLint.CommandLine
