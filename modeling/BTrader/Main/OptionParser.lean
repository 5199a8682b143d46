import BTrader.Core.FdsMap

/-! The command line. The options a parser accepts are read back from every way of writing them, and
it stops with an error at the first argument that is none of these. -/
namespace BTrader

/-- `option_t`. A character of zero and a string that is null are none. -/
structure OptionT (σ : Type) where
  chr : Char
  str : Option Text
  arg : Bool
  func : Option Text → σ → σ

namespace OptionParser

variable {σ : Type}

/-- What `parse` returns with what the actions have done, or what `error` prints before it exits. -/
inductive Outcome (σ : Type) where
  | returned (rest : List Text) (s : σ)
  | exited (line : Text) (s : σ)
  deriving DecidableEq

/-- The argument of an option: behind its name, if there is one, or the next of the arguments. -/
inductive Optarg where
  | here (value : Option Text)
  | next
  deriving DecidableEq

inductive Msg where
  | noArgumentAllowed | argumentRequired | unrecognizedOption
  deriving DecidableEq, Repr

def Msg.text : Msg → Text
  | .noArgumentAllowed => "no argument allowed for option".toList
  | .argumentRequired => "argument required for option".toList
  | .unrecognizedOption => "unrecognized option".toList

def error (msg : Msg) (argv0 arg : Text) : Text :=
  argv0 ++ [':', ' '] ++ msg.text ++ [' '] ++ arg ++ ['\n']

/-- Whether an argument that starts with a dash is this option, and where its own argument is
then. -/
def optarg (opt : Text) (it : OptionT σ) : Option Optarg :=
  let name := it.str.getD []
  let chrMatch := opt[1]? ≠ some '-' ∧ it.chr ≠ '\x00' ∧ opt[1]? = some it.chr
  let strMatch := opt[1]? = some '-' ∧ name ≠ [] ∧ name <+: opt.drop 2
  if chrMatch then some (.here (if opt.drop 2 = [] then none else some (opt.drop 2)))
  else if strMatch then
    match opt.drop (2 + name.length) with
    | '=' :: value => some (.here (some value))
    | [] => some (if it.arg then .next else .here none)
    | _ => none
  else none

/-- The first option that matches. -/
def chosen (opts : List (OptionT σ)) (opt : Text) : Option (OptionT σ × Optarg) :=
  opts.findSome? fun it => (optarg opt it).map fun found => (it, found)

/-- The two checks and the call of the action. -/
def run (it : OptionT σ) (value : Option Text) (argv0 opt : Text) (s : σ) (goOn : σ → Outcome σ) :
    Outcome σ :=
  if value.isSome ∧ ¬ it.arg then .exited (error .noArgumentAllowed argv0 opt) s
  else if value.isNone ∧ it.arg then .exited (error .argumentRequired argv0 opt) s
  else goOn (it.func value s)

def parseFrom (opts : List (OptionT σ)) (argv0 : Text) : List Text → σ → Outcome σ
  | [], s => .returned [] s
  | [opt], s =>
    if opt.head? = some '-' then
      match chosen opts opt with
      | none => .exited (error .unrecognizedOption argv0 opt) s
      | some (it, .here value) => run it value argv0 opt s (.returned [])
      | some (it, .next) => run it none argv0 opt s (.returned [])
    else .returned [opt] s
  | opt :: value :: argv, s =>
    if opt.head? = some '-' then
      match chosen opts opt with
      | none => .exited (error .unrecognizedOption argv0 opt) s
      | some (it, .here given) => run it given argv0 opt s (parseFrom opts argv0 (value :: argv))
      | some (it, .next) => run it (some value) argv0 opt s (parseFrom opts argv0 argv)
    else .returned (opt :: value :: argv) s

/-- `argv` is behind the name of the program. -/
def parse (opts : List (OptionT σ)) (argv0 : Text) (argv : List Text) (s : σ) : Outcome σ :=
  parseFrom opts argv0 argv s

/-! The settings of a command line -/

/-- An argument that names an option, with a value behind the name or none. -/
inductive Names (it : OptionT σ) : Text → Option Text → Prop where
  | short (value : Option Text) (char : it.chr ≠ '\x00') (dash : it.chr ≠ '-')
      (nonempty : value ≠ some []) :
      Names it ('-' :: it.chr :: value.getD []) value
  | long (name : Text) (str : it.str = some name) (nonempty : name ≠ []) :
      Names it ('-' :: '-' :: name) none
  | assigned (name value : Text) (str : it.str = some name) (nonempty : name ≠ []) :
      Names it ('-' :: '-' :: (name ++ '=' :: value)) (some value)

/-- The arguments that set an option. -/
inductive Sets (it : OptionT σ) : Option Text → List Text → Prop where
  | alone {opt : Text} {value : Option Text} (names : Names it opt value)
      (given : value.isSome = it.arg) :
      Sets it value [opt]
  | apart {name : Text} (value : Text) (str : it.str = some name) (nonempty : name ≠ [])
      (takes : it.arg = true) :
      Sets it (some value) ['-' :: '-' :: name, value]

/-- The first arguments set options, which takes `s` to the last state. -/
inductive Settings (opts : List (OptionT σ)) : List Text → List Text → σ → σ → Prop where
  | done (rest : List Text) (s : σ) : Settings opts rest rest s s
  | set {it : OptionT σ} {value : Option Text} {tokens argv rest : List Text} {s t : σ}
      (member : it ∈ opts)
      (sets : Sets it value tokens) (later : Settings opts argv rest (it.func value s) t) :
      Settings opts (tokens ++ argv) rest s t

def Dashed (opt : Text) : Prop := opt.head? = some '-'

/-- Why an argument, with those behind it, sets nothing. -/
def Refused (opts : List (OptionT σ)) (opt : Text) (argv : List Text) : Msg → Prop
  | .noArgumentAllowed => ∃ it ∈ opts, it.arg = false ∧ ∃ value, Names it opt (some value)
  | .argumentRequired => ∃ it ∈ opts, it.arg = true ∧ Names it opt none ∧
      (opt[1]? = some '-' → argv = [])
  | .unrecognizedOption => Dashed opt ∧ ∀ it ∈ opts, ∀ value, ¬ Names it opt value

/-- No two options share a character or a name, and no name has the character that ends it. -/
structure Distinct (opts : List (OptionT σ)) : Prop where
  chars : ∀ a ∈ opts, ∀ b ∈ opts, a.chr = b.chr → a.chr ≠ '\x00' → a = b
  names : ∀ a ∈ opts, ∀ b ∈ opts, ∀ name, a.str = some name → b.str = some name → name ≠ [] → a = b
  whole : ∀ it ∈ opts, ∀ name, it.str = some name → '=' ∉ name

section
variable {opts : List (OptionT σ)} {it a b : OptionT σ} {opt : Text} {value : Option Text}
    {argv0 : Text} {argv rest tokens : List Text} {s t : σ}

theorem optarg_short (char : it.chr ≠ '\x00') (dash : it.chr ≠ '-') (value : Text) :
    optarg ('-' :: it.chr :: value) it =
      some (.here (if value = [] then none else some value)) := by
  simp [optarg, char, dash]

theorem optarg_long {name : Text} (str : it.str = some name) (nonempty : name ≠ []) :
    optarg ('-' :: '-' :: name) it = some (if it.arg then .next else .here none) := by
  simp [optarg, str, nonempty, Nat.add_comm 2]

theorem optarg_assigned {name : Text} (str : it.str = some name) (nonempty : name ≠ [])
    (value : Text) :
    optarg ('-' :: '-' :: (name ++ '=' :: value)) it = some (.here (some value)) := by
  simp [optarg, str, nonempty, Nat.add_comm 2]

/-- What matches behind two dashes is the long name of the option. -/
theorem optarg_names_long {rest : Text} {found : Optarg}
    (matched : optarg ('-' :: '-' :: rest) it = some found) :
    ∃ value, Names it ('-' :: '-' :: rest) value ∧
      (found = .here value ∨ found = .next ∧ value = none ∧ it.arg = true) := by
  simp only [optarg, List.getElem?_cons_succ, List.getElem?_cons_zero, ne_eq, not_true_eq_false,
    false_and, if_false, List.drop_succ_cons, List.drop_zero, true_and] at matched
  split at matched
  · rename_i long
    obtain ⟨nonempty, behind, rfl⟩ := long
    obtain ⟨name, str⟩ : ∃ name, it.str = some name := by
      cases str : it.str with
      | none => simp [str] at nonempty
      | some name => exact ⟨name, rfl⟩
    simp only [str, Option.getD_some, Nat.add_comm 2, List.drop_succ_cons,
      List.drop_left] at nonempty matched ⊢
    cases behind with
    | nil =>
      rw [List.append_nil]
      refine ⟨none, .long name str nonempty, ?_⟩
      cases takes : it.arg with
      | false => exact .inl (by simpa [takes] using matched.symm)
      | true => exact .inr ⟨by simpa [takes] using matched.symm, rfl, rfl⟩
    | cons c value =>
      by_cases assigned : c = '='
      · subst assigned
        exact ⟨some value, .assigned name value str nonempty, .inl (Option.some.inj matched).symm⟩
      · split at matched
        · simp_all
        · contradiction
        · contradiction
  · contradiction

/-- What matches behind one dash is the character of the option. -/
theorem optarg_names_short {c : Char} {rest : Text} (dash : c ≠ '-') {found : Optarg}
    (matched : optarg ('-' :: c :: rest) it = some found) :
      ∃ value, Names it ('-' :: c :: rest) value ∧ found = .here value := by
  simp only [optarg, List.getElem?_cons_succ, List.getElem?_cons_zero, ne_eq, Option.some.injEq,
    dash, not_false_eq_true,
    true_and, List.drop_succ_cons, List.drop_zero, false_and, if_false] at matched
  split at matched
  · rename_i short
    obtain ⟨char, rfl⟩ := short
    by_cases alone : rest = []
    · subst alone
      exact ⟨none, .short none char dash (by simp), by simpa using matched.symm⟩
    · exact ⟨some rest, .short (some rest) char dash (by simpa using alone),
        by simpa [alone] using matched.symm⟩
  · contradiction

/-- What matches is a name of the option. -/
theorem optarg_names (dashed : Dashed opt) {found : Optarg} (matched : optarg opt it = some found) :
    ∃ value, Names it opt value ∧
      (found = .here value ∨ found = .next ∧ value = none ∧ it.arg = true ∧
      opt[1]? = some '-') := by
  obtain ⟨behind, rfl⟩ : ∃ behind, opt = '-' :: behind := by
    cases opt with
    | nil => contradiction
    | cons c behind => exact ⟨behind, by rw [Option.some.inj dashed]⟩
  cases behind with
  | nil => simp [optarg] at matched
  | cons c rest =>
    by_cases dash : c = '-'
    · subst dash
      obtain ⟨value, names, here | ⟨next, none, takes⟩⟩ := optarg_names_long matched
      · exact ⟨value, names, .inl here⟩
      · exact ⟨value, names, .inr ⟨next, none, takes, rfl⟩⟩
    · obtain ⟨value, names, here⟩ := optarg_names_short dash matched
      exact ⟨value, names, .inl here⟩

/-- How the option is called is read off the argument. -/
theorem Names.key (names : Names it opt value) (whole : ∀ name, it.str = some name → '=' ∉ name) :
    (opt[1]? = some it.chr ∧ it.chr ≠ '\x00' ∧ it.chr ≠ '-') ∨
      opt[1]? = some '-' ∧ ∃ name, it.str = some name ∧ name ≠ [] ∧
        (opt.drop 2).takeWhile (· ≠ '=') = name := by
  have all {name : Text} (str : it.str = some name) : ∀ c ∈ name, decide (c ≠ '=') = true := by
    intro c member
    simp only [ne_eq, decide_not, Bool.not_eq_true', decide_eq_false_iff_not]
    rintro rfl
    exact whole name str member
  cases names with
  | short value char dash nonempty => exact .inl ⟨rfl, char, dash⟩
  | long name str nonempty =>
    exact .inr ⟨rfl, name, str, nonempty, List.takeWhile_eq_self_iff.mpr (all str)⟩
  | assigned name value str nonempty =>
    refine .inr ⟨rfl, name, str, nonempty, ?_⟩
    change (name ++ '=' :: value).takeWhile (· ≠ '=') = name
    rw [List.takeWhile_append_of_pos (all str)]
    simp

/-- Only one option is called so. -/
theorem names_unique (distinct : Distinct opts) (one : a ∈ opts) (other : b ∈ opts)
    {value' : Option Text} (first : Names a opt value) (second : Names b opt value') : a = b := by
  rcases first.key (distinct.whole a one) with ⟨char, some, dash⟩ | ⟨char, name, str, some, key⟩
  · rcases second.key (distinct.whole b other) with ⟨char', _, _⟩ | ⟨char', _⟩
    · exact distinct.chars a one b other (Option.some.inj (char.symm.trans char')) some
    · exact absurd (Option.some.inj (char.symm.trans char')) dash
  · rcases second.key (distinct.whole b other) with ⟨char', _, dash⟩ | ⟨_, name', str', _, key'⟩
    · exact absurd (Option.some.inj (char'.symm.trans char)) dash
    · obtain rfl : name = name' := key.symm.trans key'
      exact distinct.names a one b other name str str' some

theorem Names.dashed (names : Names it opt value) : Dashed opt := by
  cases names <;> rfl

theorem Names.optarg (names : Names it opt value) :
    OptionParser.optarg opt it = some (.here value) ∨
      OptionParser.optarg opt it = some .next ∧ value = none ∧ it.arg = true ∧
        opt[1]? = some '-' := by
  cases names with
  | short value char dash nonempty =>
    rw [optarg_short char dash]
    cases value with
    | none => exact .inl rfl
    | some value =>
      have nonempty : value ≠ [] := by simpa using nonempty
      simp [nonempty]
  | long name str nonempty =>
    rw [optarg_long str nonempty]
    cases takes : it.arg with
    | false => exact .inl rfl
    | true => exact .inr ⟨rfl, rfl, rfl, rfl⟩
  | assigned name value str nonempty => exact .inl (optarg_assigned str nonempty value)

/-- The option that an argument names is the one that is chosen. -/
theorem chosen_names (distinct : Distinct opts) (member : it ∈ opts) (names : Names it opt value)
    {found : Optarg}
    (taken : OptionParser.optarg opt it = some found) : chosen opts opt = some (it, found) := by
  have some : (chosen opts opt).isSome := by
    rw [chosen, List.findSome?_isSome_iff]
    exact ⟨it, member, by simp [taken]⟩
  obtain ⟨⟨b, found'⟩, first⟩ := Option.isSome_iff_exists.mp some
  obtain ⟨c, other, matched⟩ := List.exists_of_findSome?_eq_some first
  obtain ⟨found'', taken', same⟩ := Option.map_eq_some_iff.mp matched
  obtain ⟨value', names', _⟩ := optarg_names names.dashed taken'
  obtain rfl := names_unique distinct member other names names'
  obtain rfl : found = found'' := Option.some.inj (taken.symm.trans taken')
  rw [first, ← same]

theorem chosen_none (dashed : Dashed opt) :
    chosen opts opt = none ↔ ∀ it ∈ opts, ∀ value, ¬ Names it opt value := by
  rw [chosen, List.findSome?_eq_none_iff]
  constructor
  · intro none it member value names
    have absent := none it member
    rcases names.optarg with taken | ⟨taken, _⟩ <;> simp [taken] at absent
  · intro none it member
    cases taken : OptionParser.optarg opt it with
    | none => rfl
    | some found =>
      obtain ⟨value, names, _⟩ := optarg_names dashed taken
      exact absurd names (none it member value)

theorem parseFrom_here (dashed : Dashed opt) {given : Option Text}
    (first : chosen opts opt = some (it, .here given)) :
    parseFrom opts argv0 (opt :: argv) s =
      run it given argv0 opt s (parseFrom opts argv0 argv) := by
  have dashed : opt.head? = some '-' := dashed
  cases argv with
  | nil =>
    rw [parseFrom, if_pos dashed, first]
    rfl
  | cons value argv => rw [parseFrom, if_pos dashed, first]

/-- The option that an argument names, with its value behind the name, is what runs. -/
theorem parseFrom_named (distinct : Distinct opts) (member : it ∈ opts) (names : Names it opt value)
    (taken : OptionParser.optarg opt it = some (.here value)) :
    parseFrom opts argv0 (opt :: argv) s = run it value argv0 opt s (parseFrom opts argv0 argv) :=
  parseFrom_here names.dashed (chosen_names distinct member names taken)

theorem parseFrom_rest (plain : ∀ opt ∈ argv.head?, ¬ Dashed opt) :
    parseFrom opts argv0 argv s = .returned argv s := by
  match argv with
  | [] => rfl
  | [opt] => exact if_neg (plain opt rfl)
  | opt :: value :: argv => exact if_neg (plain opt rfl)

theorem parseFrom_sets (distinct : Distinct opts) (member : it ∈ opts)
    (sets : Sets it value tokens) :
    parseFrom opts argv0 (tokens ++ argv) s = parseFrom opts argv0 argv (it.func value s) := by
  cases sets with
  | alone names given =>
    rcases names.optarg with taken | ⟨_, none, takes, _⟩
    · rw [List.singleton_append, parseFrom_named distinct member names taken, run]
      cases value <;> simp_all
    · rw [none, takes] at given
      contradiction
  | apart value str nonempty takes =>
    rename_i name
    have names : Names it ('-' :: '-' :: name) none := .long name str nonempty
    have taken : OptionParser.optarg ('-' :: '-' :: name) it = some .next := by
      rw [optarg_long str nonempty, takes]; rfl
    have first := chosen_names distinct member names taken
    change parseFrom opts argv0 (('-' :: '-' :: name) :: value :: argv) s = _
    have dashed : ('-' :: '-' :: name).head? = some '-' := rfl
    rw [parseFrom, if_pos dashed, first]
    simp [run, takes]

theorem parseFrom_refused (distinct : Distinct opts) {msg : Msg}
    (refused : Refused opts opt argv msg) :
    parseFrom opts argv0 (opt :: argv) s = .exited (error msg argv0 opt) s := by
  cases msg with
  | noArgumentAllowed =>
    obtain ⟨it, member, free, value, names⟩ := refused
    rcases names.optarg with taken | ⟨_, none, _⟩
    · rw [parseFrom_named distinct member names taken, run]
      simp [free]
    · contradiction
  | argumentRequired =>
    obtain ⟨it, member, takes, names, last⟩ := refused
    rcases names.optarg with taken | ⟨taken, _, _, long⟩
    · rw [parseFrom_named distinct member names taken, run]
      simp [takes]
    · have dashed : opt.head? = some '-' := names.dashed
      rw [last long, parseFrom, if_pos dashed, chosen_names distinct member names taken]
      simp [run, takes]
  | unrecognizedOption =>
    obtain ⟨dashed, none⟩ := refused
    have first := (chosen_none dashed).mpr none
    have dashed : opt.head? = some '-' := dashed
    cases argv with
    | nil => rw [parseFrom, if_pos dashed, first]
    | cons value argv => rw [parseFrom, if_pos dashed, first]

/-- An argument with a dash sets an option, alone or with the next one, or it is refused. -/
theorem sets_or_refused (opts : List (OptionT σ)) (dashed : Dashed opt) (argv : List Text) :
    (∃ it ∈ opts, ∃ value tokens left, Sets it value tokens ∧ opt :: argv = tokens ++ left ∧
      left.length ≤ argv.length) ∨
      ∃ msg, Refused opts opt argv msg := by
  by_cases called : ∃ it ∈ opts, ∃ value, Names it opt value
  · obtain ⟨it, member, value, names⟩ := called
    cases takes : it.arg with
    | false =>
      cases value with
      | none =>
        exact .inl ⟨it, member, none, [opt], argv, .alone names (by simp [takes]), rfl, le_refl _⟩
      | some value => exact .inr ⟨.noArgumentAllowed, it, member, takes, value, names⟩
    | true =>
      cases value with
      | some value =>
        exact .inl ⟨it, member, some value, [opt], argv, .alone names (by simp [takes]),
          rfl, le_refl _⟩
      | none =>
        cases argv with
        | nil => exact .inr ⟨.argumentRequired, it, member, takes, names, fun _ => rfl⟩
        | cons value argv =>
          cases names with
          | long name str nonempty =>
            exact .inl ⟨it, member, some value, _, argv, .apart value str nonempty takes, rfl,
              Nat.le_succ _⟩
          | short value' char dash nonempty =>
            refine .inr ⟨.argumentRequired, it, member, takes, .short none char dash nonempty,
              fun long => ?_⟩
            exact absurd (Option.some.inj long) dash
  · exact .inr ⟨.unrecognizedOption, dashed, fun it member value names =>
      called ⟨it, member, value, names⟩⟩

/-- Every command line sets options up to its end, to an argument without a dash, or to one that
is refused. -/
theorem settings_whole (opts : List (OptionT σ)) (argv : List Text) (s : σ) :
    ∃ rest t, Settings opts argv rest s t ∧
      ((∀ opt ∈ rest.head?, ¬ Dashed opt) ∨ ∃ opt left msg, rest = opt :: left ∧
        Refused opts opt left msg) := by
  induction n : argv.length using Nat.strong_induction_on generalizing argv s with
  | h n ih =>
    subst n
    cases argv with
    | nil => exact ⟨[], s, .done [] s, .inl (by simp)⟩
    | cons opt argv =>
      by_cases dashed : Dashed opt
      · rcases sets_or_refused opts dashed argv with ⟨it, member, value, tokens, left, sets, split,
          shorter⟩ | ⟨msg, refused⟩
        · obtain ⟨rest, t, later, stop⟩ :=
            ih left.length (Nat.lt_succ_of_le shorter) left (it.func value s) rfl
          refine ⟨rest, t, ?_, stop⟩
          rw [split]
          exact .set member sets later
        · exact ⟨opt :: argv, s, .done _ s, .inr ⟨opt, argv, msg, rfl, refused⟩⟩
      · exact ⟨opt :: argv, s, .done _ s, .inl fun _ same => by cases same; exact dashed⟩

theorem parseFrom_settings (distinct : Distinct opts) (settings : Settings opts argv rest s t) :
    parseFrom opts argv0 argv s = parseFrom opts argv0 rest t := by
  induction settings with
  | done rest s => rfl
  | set member sets later ih => rw [parseFrom_sets distinct member sets, ih]

theorem parse_settings (distinct : Distinct opts) (settings : Settings opts argv rest s t)
    (plain : ∀ opt ∈ rest.head?, ¬ Dashed opt) : parse opts argv0 argv s = .returned rest t := by
  rw [parse, parseFrom_settings distinct settings, parseFrom_rest plain]

theorem parse_refused (distinct : Distinct opts) {left : List Text}
    (settings : Settings opts argv (opt :: left) s t)
    {msg : Msg} (refused : Refused opts opt left msg) :
      parse opts argv0 argv s = .exited (error msg argv0 opt) t := by
  rw [parse, parseFrom_settings distinct settings, parseFrom_refused distinct refused]

/-- The parser returns what is behind the settings if they end or an argument without a dash
follows. It exits exactly on the first argument that is refused, with the actions of the settings
before it done. -/
theorem parse_iff (distinct : Distinct opts) (argv0 : Text) (argv : List Text) (s : σ) :
    (∀ rest t, parse opts argv0 argv s = .returned rest t ↔ Settings opts argv rest s t ∧
      ∀ opt ∈ rest.head?, ¬ Dashed opt) ∧
      ∀ line t, parse opts argv0 argv s = .exited line t ↔
        ∃ opt left msg, Settings opts argv (opt :: left) s t ∧ Refused opts opt left msg ∧
          line = error msg argv0 opt := by
  obtain ⟨rest, t, settings, stop⟩ := settings_whole opts argv s
  constructor
  · intro rest' t'
    constructor
    · intro returned
      rcases stop with plain | ⟨opt, left, msg, rfl, refused⟩
      · have same := (parse_settings distinct settings plain).symm.trans returned
        cases same
        exact ⟨settings, plain⟩
      · have other := (parse_refused distinct settings refused).symm.trans returned
        contradiction
    · rintro ⟨settings, plain⟩
      exact parse_settings distinct settings plain
  · intro line t'
    constructor
    · intro exited
      rcases stop with plain | ⟨opt, left, msg, rfl, refused⟩
      · have other := (parse_settings distinct settings plain).symm.trans exited
        contradiction
      · have same := (parse_refused distinct settings refused).symm.trans exited
        cases same
        exact ⟨opt, left, msg, settings, refused, rfl⟩
    · rintro ⟨opt, left, msg, settings, refused, rfl⟩
      exact parse_refused distinct settings refused

end
end OptionParser

namespace Mentor

/-- What the constructor reads from the command line. -/
structure Options where
  role : Text
  cfgFile : Text
  deriving DecidableEq, Repr

def roleOption : OptionT Options where
  chr := '\x00'
  str := some "role".toList
  arg := true
  func value options := { options with role := value.getD [] }

def cfgOption : OptionT Options where
  chr := '\x00'
  str := some "cfg".toList
  arg := true
  func value options := { options with cfgFile := value.getD [] }

def options : List (OptionT Options) := [roleOption, cfgOption]

/-- The constructor of a process up to `init`. It throws when there is no argument. -/
def mentor (argv0 : Text) (argv : List Text) : Except Text (OptionParser.Outcome Options) :=
  if argv.length + 1 ≤ 1 then .error "argc <= 1".toList
  else .ok (OptionParser.parse options argv0 argv ⟨[], []⟩)

/-- The arguments that the master gives to a process that it starts. -/
def args (role cfgFile : Text) : List Text := ["--role=".toList ++ role, "--cfg=".toList ++ cfgFile]

theorem options_distinct : OptionParser.Distinct options where
  chars := by simp [options, roleOption, cfgOption]
  names := by simp [options, roleOption, cfgOption]
  whole := by simp [options, roleOption, cfgOption]

/-- A process reads back the role and the file that the master started it with, whatever their
texts are. -/
theorem mentor_args (argv0 role cfgFile : Text) :
    mentor argv0 (args role cfgFile) = .ok (.returned [] ⟨role, cfgFile⟩) := by
  have sets (it : OptionT Options) (name value : Text) (str : it.str = some name)
      (nonempty : name ≠ []) (takes : it.arg = true) :
      OptionParser.Sets it (some value) ['-' :: '-' :: (name ++ '=' :: value)] :=
    .alone (.assigned name value str nonempty) (by simp [takes])
  have settings : OptionParser.Settings options (args role cfgFile) [] ⟨[], []⟩ ⟨role, cfgFile⟩ :=
    .set List.mem_cons_self (sets roleOption "role".toList role rfl (by simp) rfl)
      (.set (List.mem_cons_of_mem _ List.mem_cons_self)
        (sets cfgOption "cfg".toList cfgFile rfl (by simp) rfl) (.done [] _))
  rw [mentor, if_neg (by simp [args]),
    OptionParser.parse_settings options_distinct settings (by simp)]

/-- The role is set before the argument with a typing error stops the program. -/
theorem parse_iff_mentor :
    ∃ opt left msg, OptionParser.Settings options ["--role".toList, "md".toList, "--cgf=a".toList]
      (opt :: left) ⟨[], []⟩ ⟨"md".toList, []⟩ ∧
      OptionParser.Refused options opt left msg ∧
      "btra: unrecognized option --cgf=a\n".toList = OptionParser.error msg "btra".toList opt :=
  ((OptionParser.parse_iff options_distinct "btra".toList ["--role".toList, "md".toList,
    "--cgf=a".toList] ⟨[], []⟩).2 _ _).mp
    (by decide)

end Mentor
end BTrader
