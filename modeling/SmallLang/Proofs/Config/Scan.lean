import SmallLang.Config.Basic
import SmallLang.Formats.Standard

/-! Command lines read from left to right. Flags and other arguments may be mixed: what a command
line says depends on its flags and on its other arguments, each in order. -/

namespace SmallLang

namespace Flags

def equalsSign : UInt8 := ascii '='

/-- The flags that take no value, with one or two dashes. -/
def helpFlags : List Bytes := [utf8 "-h", utf8 "--h", utf8 "-help", utf8 "--help"]

/-- Whether the next argument is the value of a flag: it is none for help, and not needed behind an
equals sign. -/
def takesNext (arg : Bytes) : Bool := !helpFlags.contains arg && !arg.contains equalsSign

/-- An argument of at least two bytes that starts with a dash, and does not end the flags. -/
structure IsFlag (arg : Bytes) : Prop where
  looks : looksLikeFlag arg = true
  ne_terminator : arg ≠ terminator

/-- A flag, with the argument behind it if that is its value. -/
structure Flag where
  arg : Bytes
  value : Option Bytes
  isFlag : IsFlag arg
  isSome_value : value.isSome = takesNext arg
deriving DecidableEq

/-- A flag at the end that should take the argument behind it. -/
structure Lacking where
  arg : Bytes
  isFlag : IsFlag arg
  takes : takesNext arg = true
deriving DecidableEq

structure Scanned where
  flags : List Flag := []
  lacking : Option Lacking := none
  operands : List Bytes := []
deriving DecidableEq

def scan : List Bytes → Scanned
  | [] => {}
  | arg :: rest =>
    if hend : arg = terminator then { operands := rest }
    else if hlooks : looksLikeFlag arg = true then
      if htakes : takesNext arg = true then
        match rest with
        | [] => { lacking := some ⟨arg, ⟨hlooks, hend⟩, htakes⟩ }
        | value :: rest =>
          let s := scan rest
          { s with flags := ⟨arg, some value, ⟨hlooks, hend⟩, htakes.symm⟩ :: s.flags }
      else
        let s := scan rest
        { s with
          flags := ⟨arg, none, ⟨hlooks, hend⟩, (Bool.eq_false_iff.mpr htakes).symm⟩ :: s.flags }
    else
      let s := scan rest
      { s with operands := arg :: s.operands }

def badSyntax (arg : Bytes) : Failure := .other (utf8 "bad flag syntax: " ++ arg)

def needsArgument (name : Bytes) : Failure := .other (utf8 "flag needs an argument: -" ++ name)

/-- What a flag says: a value behind its equals sign counts, or else the argument behind it. -/
def Flag.apply (f : Flags) (flag : Flag) : Except Failure Flags :=
  if hasBadSyntax (body flag.arg) then .error (badSyntax flag.arg)
  else
    let (name, value) := splitValue (body flag.arg)
    if isSwitch name then f.switch name value
    else
      match f.set? name ((value.or flag.value).getD []) with
      | some f => .ok f
      | none => .error (undefined name)

def Lacking.failure (flag : Lacking) : Failure :=
  if hasBadSyntax (body flag.arg) then badSyntax flag.arg
  else if (set? {} (body flag.arg) []).isSome then needsArgument (body flag.arg)
  else undefined (body flag.arg)

/-- What the flags say in order, and the other arguments. -/
def Scanned.read (s : Scanned) : Except Failure (Flags × List Bytes) := do
  let f ← s.flags.foldlM Flag.apply {}
  match s.lacking with
  | some flag => .error flag.failure
  | none => return (f, s.operands)

section Spelling

variable {arg : Bytes}

theorem eq_dash_body (h : looksLikeFlag arg = true) :
    arg = dash :: body arg ∨ arg = dash :: dash :: body arg := by
  cases arg with
  | nil => cases h
  | cons b arg =>
    have hb : b = dash := by simpa [looksLikeFlag] using (Bool.and_eq_true_iff.mp h).2
    rw [body]
    split
    · rename_i hdashes
      cases arg with
      | nil => cases hdashes
      | cons c arg =>
        have hc : c = dash := (List.cons.inj (List.cons.inj hdashes).2).1
        exact .inr (by rw [hb, hc]; rfl)
    · exact .inl (by rw [hb]; rfl)

theorem contains_equalsSign (h : looksLikeFlag arg = true) :
    arg.contains equalsSign = (body arg).contains equalsSign := by
  rcases eq_dash_body h with harg | harg
  · exact (congrArg (·.contains equalsSign) harg).trans List.contains_cons
  · refine (congrArg (·.contains equalsSign) harg).trans ?_
    rw [List.contains_cons, List.contains_cons]
    rfl

theorem splitValue_self (b : Bytes) : splitValue (equalsSign :: b) = ([], some b) := rfl

theorem splitValue_cons_of_ne {c : UInt8} (hc : c ≠ equalsSign) (b : Bytes) :
    splitValue (c :: b) = (c :: (splitValue b).1, (splitValue b).2) := by
  have htake : (c :: b).takeWhile (· ≠ ascii '=') = c :: b.takeWhile (· ≠ ascii '=') :=
    List.takeWhile_cons_of_pos (decide_eq_true hc)
  rw [splitValue, splitValue, htake, List.length_cons, List.drop_succ_cons]
  cases b.drop (b.takeWhile (· ≠ ascii '=')).length <;> rfl

theorem isSome_splitValue (b : Bytes) : (splitValue b).2.isSome = b.contains equalsSign := by
  induction b with
  | nil => rfl
  | cons c b ih =>
    by_cases hc : c = equalsSign
    · rw [hc, splitValue_self, List.contains_cons, beq_self_eq_true]
      rfl
    · rw [splitValue_cons_of_ne hc, ih, List.contains_cons, beq_eq_false_iff_ne.mpr (Ne.symm hc)]
      rfl

theorem splitValue_of_contains {b : Bytes} (h : b.contains equalsSign = false) :
    splitValue b = (b, none) := by
  induction b with
  | nil => rfl
  | cons c b ih =>
    rw [List.contains_cons, Bool.or_eq_false_iff] at h
    rw [splitValue_cons_of_ne (Ne.symm (beq_eq_false_iff_ne.mp h.1)), ih h.2]

theorem isSwitch_iff {name : Bytes} :
    isSwitch name = true ↔ name = utf8 "help" ∨ name = utf8 "h" := by
  simp [isSwitch]

theorem mem_helpFlags_iff : helpFlags.contains arg = true ↔
    arg = utf8 "-h" ∨ arg = utf8 "--h" ∨ arg = utf8 "-help" ∨ arg = utf8 "--help" := by
  simp [helpFlags]

theorem takesNext_of_equalsSign (h : arg.contains equalsSign = true) : takesNext arg = false := by
  rw [takesNext, h, Bool.not_true, Bool.and_false]

/-- Without an equals sign the flags that take no value are those with the names for help. -/
theorem takesNext_of_plain (hlooks : looksLikeFlag arg = true)
    (h : arg.contains equalsSign = false) : takesNext arg = !isSwitch (body arg) := by
  rw [takesNext, h, Bool.not_false, Bool.and_true, Bool.not_eq_eq_eq_not, Bool.not_not,
    Bool.eq_iff_iff, mem_helpFlags_iff, isSwitch_iff]
  constructor
  · rintro (rfl | rfl | rfl | rfl) <;> decide
  · rintro (hname | hname) <;> rcases eq_dash_body hlooks with harg | harg <;> rw [harg, hname]
    · exact .inr (.inr (.inl rfl))
    · exact .inr (.inr (.inr rfl))
    · exact .inl rfl
    · exact .inr (.inl rfl)

end Spelling

theorem isSome_set? (f f' : Flags) (name value value' : Bytes) :
    (f.set? name value).isSome = (f'.set? name value').isSome := by
  simp only [set?]
  repeat' split
  all_goals rfl

theorem looksLikeFlag_terminator : looksLikeFlag terminator = true := by decide

theorem read_flag (flag : Flag) (f : Flags) (rest : List Bytes) :
    read none f (flag.arg :: (flag.value.toList ++ rest)) =
      flag.apply f >>= fun f => read none f rest := by
  obtain ⟨arg, value, ⟨hlooks, hend⟩, hvalue⟩ := flag
  rw [read, Flag.apply]
  simp only [hlooks, hend, Bool.not_true, Bool.false_eq_true, if_false]
  by_cases hbad : hasBadSyntax (body arg)
  · simp only [hbad, if_true]
    rfl
  simp only [hbad, Bool.false_eq_true, if_false]
  cases hequals : arg.contains equalsSign with
  | true =>
    rw [takesNext_of_equalsSign hequals, Option.isSome_eq_false_iff, Option.isNone_iff_eq_none]
      at hvalue
    rw [contains_equalsSign hlooks, ← isSome_splitValue] at hequals
    obtain ⟨text, htext⟩ := Option.isSome_iff_exists.mp hequals
    simp only [hvalue, htext, Option.toList_none, List.nil_append, Option.some_or, Option.getD_some]
    split
    · cases f.switch (splitValue (body arg)).1 (some text) <;> rfl
    · cases f.set? (splitValue (body arg)).1 text <;> rfl
  | false =>
    have hplain := hequals
    rw [contains_equalsSign hlooks] at hplain
    rw [takesNext_of_plain hlooks hequals] at hvalue
    simp only [splitValue_of_contains hplain, Option.none_or]
    cases hswitch : isSwitch (body arg) with
    | true =>
      rw [hswitch, Bool.not_true, Option.isSome_eq_false_iff, Option.isNone_iff_eq_none] at hvalue
      simp only [hvalue, if_true, Option.toList_none, List.nil_append]
      cases f.switch (body arg) none <;> rfl
    | false =>
      rw [hswitch, Bool.not_false] at hvalue
      obtain ⟨text, rfl⟩ := Option.isSome_iff_exists.mp hvalue
      simp only [Bool.false_eq_true, if_false, Option.toList_some, List.singleton_append,
        Option.getD_some, isSome_set? f f (body arg) [] text]
      cases hset : f.set? (body arg) text with
      | none => rfl
      | some f' =>
        simp only [Option.isSome_some, if_true, read, hset]
        rfl

theorem read_lacking (flag : Lacking) (f : Flags) :
    read none f [flag.arg] = .error flag.failure := by
  obtain ⟨arg, ⟨hlooks, hend⟩, htakes⟩ := flag
  have hequals : arg.contains equalsSign = false := by
    rw [takesNext] at htakes
    simpa using (Bool.and_eq_true_iff.mp htakes).2
  rw [takesNext_of_plain hlooks hequals, Bool.not_eq_true'] at htakes
  rw [contains_equalsSign hlooks] at hequals
  rw [read, Lacking.failure]
  simp only [hlooks, hend, Bool.not_true, Bool.false_eq_true, if_false,
    splitValue_of_contains hequals, htakes]
  by_cases hbad : hasBadSyntax (body arg)
  · simp only [hbad, if_true]
    rfl
  simp only [hbad, Bool.false_eq_true, if_false, isSome_set? {} f (body arg) [] []]
  split <;> rfl

def Scanned.written (s : Scanned) : List Bytes :=
  s.flags.flatMap (fun flag => flag.arg :: flag.value.toList) ++ (s.lacking.map Lacking.arg).toList

/-- One of the flags for help is taken for one with a value. -/
theorem owed_eq {arg : Bytes} (h : arg ≠ utf8 "--h") :
    (!takesNoValue arg && !arg.contains (ascii '=')) = takesNext arg := by
  have hhelp : takesNoValue arg = helpFlags.contains arg := by
    rw [Bool.eq_iff_iff, mem_helpFlags_iff]
    simp only [takesNoValue, Bool.or_eq_true, decide_eq_true_eq, or_assoc, h, false_or]
    exact or_congr_right or_comm
  rw [hhelp]
  rfl

theorem ne_of_takesNext {arg : Bytes} (h : takesNext arg = true) : arg ≠ utf8 "--h" := by
  rintro rfl
  cases h

/-- Flags are brought to the front with their values; behind a terminator they have them all. -/
theorem separate_eq (args : List Bytes) (h : ∀ flag ∈ (scan args).flags, flag.arg ≠ utf8 "--h") :
    ∃ terminated, separate false args = ⟨(scan args).written, (scan args).operands, terminated⟩ ∧
      (terminated = true → (scan args).lacking = none) ∧
      (terminated = false → ∀ arg ∈ (scan args).operands, looksLikeFlag arg = false) := by
  fun_induction scan args with
  | case1 => exact ⟨false, rfl, by simp, by simp⟩
  | case2 rest => exact ⟨true, by simp [separate, Scanned.written], by simp, by simp⟩
  | case3 arg hend hlooks htakes =>
    refine ⟨false, ?_, by simp, by simp⟩
    rw [separate, if_neg hend, if_pos hlooks, owed_eq (ne_of_takesNext htakes), htakes]
    rfl
  | case4 arg hend hlooks htakes value rest s ih =>
    obtain ⟨terminated, hseparate, hlacking, hoperands⟩ :=
      ih fun flag hflag => h flag (List.mem_cons_of_mem _ hflag)
    refine ⟨terminated, ?_, hlacking, hoperands⟩
    rw [separate, if_neg hend, if_pos hlooks, owed_eq (ne_of_takesNext htakes), htakes, separate,
      hseparate]
    rfl
  | case5 arg rest hend hlooks htakes s ih =>
    obtain ⟨terminated, hseparate, hlacking, hoperands⟩ :=
      ih fun flag hflag => h flag (List.mem_cons_of_mem _ hflag)
    refine ⟨terminated, ?_, hlacking, hoperands⟩
    rw [separate, if_neg hend, if_pos hlooks, owed_eq (h _ List.mem_cons_self),
      Bool.eq_false_iff.mpr htakes, hseparate]
    rfl
  | case6 arg rest hend hlooks s ih =>
    obtain ⟨terminated, hseparate, hlacking, hoperands⟩ := ih h
    refine ⟨terminated, ?_, hlacking, fun hterminated => ?_⟩
    · rw [separate, if_neg hend, if_neg hlooks, hseparate]
      rfl
    · exact List.forall_mem_cons.mpr ⟨Bool.eq_false_iff.mpr hlooks, hoperands hterminated⟩

theorem read_flags (flags : List Flag) (f : Flags) (rest : List Bytes) :
    read none f (flags.flatMap (fun flag => flag.arg :: flag.value.toList) ++ rest) =
      flags.foldlM Flag.apply f >>= fun f => read none f rest := by
  induction flags generalizing f with
  | nil => rfl
  | cons flag flags ih =>
    rw [List.flatMap_cons, List.append_assoc, List.cons_append, read_flag, List.foldlM_cons,
      bind_assoc]
    simp only [ih]

theorem read_operands {terminated : Bool} {operands : List Bytes}
    (h : terminated = false → ∀ arg ∈ operands, looksLikeFlag arg = false) (f : Flags) :
    read none f ((if terminated then [terminator] else []) ++ operands) = .ok (f, operands) := by
  cases terminated with
  | true => simp [read, looksLikeFlag_terminator]
  | false =>
    cases operands with
    | nil => rfl
    | cons arg operands => simp [read, h rfl arg List.mem_cons_self]

/-- The flag `--h` apart, and where no argument is left for a flag that lacks its value, arguments
in their new order are read as they are scanned. -/
theorem read_reorder (args : List Bytes)
    (hhelp : ∀ flag ∈ (scan args).flags, flag.arg ≠ utf8 "--h")
    (hlacking : (scan args).lacking = none ∨ (scan args).operands = []) :
    read none {} (reorder args) = (scan args).read := by
  obtain ⟨terminated, hseparate, hend, hoperands⟩ := separate_eq args hhelp
  rw [reorder, hseparate]
  simp only [Scanned.written, Scanned.read, List.append_assoc, read_flags]
  congr 1
  funext f
  cases h : (scan args).lacking with
  | none => exact read_operands hoperands f
  | some flag =>
    have hoperands : (scan args).operands = [] := by simpa [h] using hlacking
    have hterminated : terminated = false := by
      cases terminated with
      | true => simp [h] at hend
      | false => rfl
    rw [hoperands, hterminated]
    exact read_lacking flag f

end Flags

namespace Config

open Flags

/-- A command line is read from left to right, so that flags and other arguments may be mixed in any
way that keeps the order of each. It is so if the flag `--h` is not among the flags, and if no
argument is left for a flag at the end that lacks its value, whatever a configuration file is
read by. -/
theorem ofArgs_scan [Formats] (args : List Bytes) (env : Environment) (lookup : Lookup)
    (hhelp : ∀ flag ∈ (scan args).flags, flag.arg ≠ utf8 "--h")
    (hlacking : (scan args).lacking = none ∨ (scan args).operands = []) :
    ofArgs args env lookup =
        ((scan args).read >>= fun said => ofFlags said.1 said.2 env lookup) ∧
      ∀ args', scan args' = scan args → ofArgs args' env lookup = ofArgs args env lookup := by
  have hread : ∀ args', scan args' = scan args → ofArgs args' env lookup =
      ((scan args).read >>= fun said => ofFlags said.1 said.2 env lookup) := by
    intro args' hscan
    rw [ofArgs, read_reorder args' (hscan ▸ hhelp) (hscan ▸ hlacking), hscan]
  exact ⟨hread args rfl, fun args' hscan => (hread args' hscan).trans (hread args rfl).symm⟩

def bareEnvironment : Environment := fun _ => []

def noFiles : Lookup := fun _ => .error .missing

def mixedArgs : List Bytes :=
  [utf8 "-m", utf8 "Check", utf8 "-h", utf8 "a.mini", utf8 "--scope=flat", utf8 "-l", utf8 "error"]

def sortedArgs : List Bytes :=
  [utf8 "-m", utf8 "Check", utf8 "-h", utf8 "--scope=flat", utf8 "-l", utf8 "error", utf8 "--",
    utf8 "a.mini"]

def mixedConfig : Config where
  settings := ⟨utf8 "a.mini", utf8 "check", utf8 "flat", utf8 "strict", utf8 "auto", utf8 "error"⟩
  choices := ⟨.check, ⟨.flat, .strict⟩, .auto, .error⟩
  file := []
  help := true

theorem mixedArgs_ofArgs_scan :
    ofArgs mixedArgs bareEnvironment noFiles = .ok mixedConfig ∧
      ofArgs sortedArgs bareEnvironment noFiles = .ok mixedConfig := by
  have hhelp : ∀ flag ∈ (scan mixedArgs).flags, flag.arg ≠ utf8 "--h" := by decide
  obtain ⟨hmixed, hsame⟩ := ofArgs_scan mixedArgs bareEnvironment noFiles hhelp (.inl rfl)
  have hscan : scan sortedArgs = scan mixedArgs := by decide +kernel
  have hconfig : ((scan mixedArgs).read >>= fun said =>
      ofFlags said.1 said.2 bareEnvironment noFiles) = .ok mixedConfig := rfl
  exact ⟨hmixed.trans hconfig, (hsame sortedArgs hscan).trans (hmixed.trans hconfig)⟩

/-- A flag at the end takes another argument for its value, and behind `--h` nothing else is read as
a flag. -/
theorem trailing_not_ofArgs_scan :
    (scan [utf8 "check", utf8 "-m"]).read = .error (needsArgument (utf8 "m")) ∧
      (ofArgs [utf8 "check", utf8 "-m"] bareEnvironment noFiles).map Config.settings =
        .ok { defaults with mode := utf8 "check" } ∧
      (scan [utf8 "--h", utf8 "a.mini", utf8 "-m", utf8 "check"]).read =
        .ok ({ settings := { mode := utf8 "check" }, help := true }, [utf8 "a.mini"]) ∧
      ofArgs [utf8 "--h", utf8 "a.mini", utf8 "-m", utf8 "check"] bareEnvironment noFiles =
        .error (.other (utf8 "too many arguments: -m check")) := by
  refine ⟨rfl, rfl, rfl, rfl⟩

end Config

end SmallLang
