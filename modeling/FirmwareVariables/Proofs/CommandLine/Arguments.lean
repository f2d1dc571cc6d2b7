import FirmwareVariables.CommandLine.Arguments
import Mathlib.Data.List.TakeWhile
import Mathlib.Tactic.SplitIfs

/-!
# The options of a run

`CommandLine.Asks` says which arguments ask for a run, one way to go on for each kind of argument,
and `CommandLine.ofArguments_eq_ok_run_iff` that these are the ones that are read as that.

What the arguments of a run say can be seen without reading them. The value of an option stands
behind its equals sign or in the next argument, an option without a value stands alone, and all of
them stand in front of two hyphens alone. What is none of these is a path. The main statements,
`CommandLine.value_of_ofArguments`, `CommandLine.flag_of_ofArguments` and
`CommandLine.paths_of_ofArguments`, say that reading arrives at the same.
`CommandLine.magic_of_ofArguments` is the case of the option for the tag, for which
`CommandLine.GivesTag` says where its value stands. `CommandLine.ofArguments_spelled` says that
there are arguments for every run.
-/

namespace FirmwareVariables
namespace CommandLine

section Shapes

variable {argument octets value : Bytes} {name : String}

theorem encode_hyphens :
    Utf8.encode "--" = [hyphen, hyphen] := by
  rfl

theorem encode_equalsSign :
    Utf8.encode "=" = [equalsSign] := by
  rfl

theorem shape_hyphens (octets : Bytes) :
    shape (Utf8.encode "--" ++ octets) = longShape octets := by
  rw [encode_hyphens]
  rfl

theorem shape_separator :
    shape (Utf8.encode "--") = .separator :=
  shape_hyphens []

theorem eq_of_needsValue (h : needsValue name = true) :
    name = "magic" ∨ name = "config" := by
  simpa [needsValue] using h

theorem eq_of_isFlag (h : isFlag name = true) :
    name = "json" ∨ name = "restore" := by
  simpa [isFlag] using h

/-- No name of an option has an equals sign in it. -/
theorem equalsSign_notMem_name (h : needsValue name = true ∨ isFlag name = true) :
    equalsSign ∉ Utf8.encode name := by
  rcases h with h | h
  · rcases eq_of_needsValue h with rfl | rfl <;> decide
  · rcases eq_of_isFlag h with rfl | rfl <;> decide

theorem takeWhile_of_equalsSign_notMem (h : equalsSign ∉ octets) (rest : Bytes) :
    (octets ++ equalsSign :: rest).takeWhile (· ≠ equalsSign) = octets ∧
      (octets ++ equalsSign :: rest).dropWhile (· ≠ equalsSign) = equalsSign :: rest := by
  have hinside : ∀ octet ∈ octets, decide (octet ≠ equalsSign) = true :=
    fun octet hmem => decide_eq_true fun hequal => h (hequal ▸ hmem)
  rw [List.takeWhile_append_of_pos hinside, List.dropWhile_append_of_pos hinside]
  simp

/-- The name of an option stands behind two hyphens. -/
theorem shape_option (h : needsValue name = true ∨ isFlag name = true) :
    shape (Utf8.encode ("--" ++ name)) = .long name none := by
  have hinside : ∀ octet ∈ Utf8.encode name, decide (octet ≠ equalsSign) = true :=
    fun octet hmem => decide_eq_true fun hequal => equalsSign_notMem_name h (hequal ▸ hmem)
  have hname : (Utf8.encode name).isEmpty = false := by
    rcases h with h | h
    · rcases eq_of_needsValue h with rfl | rfl <;> rfl
    · rcases eq_of_isFlag h with rfl | rfl <;> rfl
  rw [Utf8.encode_append, shape_hyphens, longShape, hname, List.takeWhile_eq_self_iff.2 hinside,
    List.dropWhile_eq_nil_iff.2 hinside, Utf8.decode?_encode]
  rfl

theorem shape_option_equals (h : needsValue name = true) (value : Bytes) :
    shape (Utf8.encode ("--" ++ name ++ "=") ++ value) = .long name (some value) := by
  obtain ⟨hname, hvalue⟩ :=
    takeWhile_of_equalsSign_notMem (equalsSign_notMem_name (.inl h)) value
  rw [Utf8.encode_append, Utf8.encode_append, List.append_assoc, List.append_assoc, shape_hyphens,
    encode_equalsSign, List.singleton_append, longShape, hname, hvalue, Utf8.decode?_encode]
  simp

/-- An argument is plain, or has a letter behind a hyphen, or something behind two. -/
theorem shape_cases (argument : Bytes) :
    shape argument = .plain ∨ (∃ letter, shape argument = .short letter) ∨
      ∃ octets, argument = Utf8.encode "--" ++ octets ∧ shape argument = longShape octets := by
  fun_cases shape argument with
  | case1 first second rest hfirst => exact .inl rfl
  | case2 first second rest hfirst hsecond => exact .inr (.inl ⟨_, rfl⟩)
  | case3 first second rest hfirst hsecond =>
      rw [not_not] at hfirst hsecond
      refine .inr (.inr ⟨rest, ?_, rfl⟩)
      rw [hfirst, hsecond, encode_hyphens]
      rfl
  | case4 => exact .inl rfl

/-- What has the shape of an option has its octets behind two hyphens. -/
theorem exists_octets_of_shape
    {behind : Option Bytes} (h : shape argument = .long name behind) :
    ∃ octets, argument = Utf8.encode "--" ++ octets ∧ longShape octets = .long name behind := by
  rcases shape_cases argument with hplain | ⟨letter, hshort⟩ | ⟨octets, hargument, hlong⟩
  · rw [hplain] at h
    cases h
  · rw [hshort] at h
    cases h
  · exact ⟨octets, hargument, hlong ▸ h⟩

/-- An option is its name, and what stands behind it from an equals sign on. -/
theorem eq_of_longShape
    {behind : Option Bytes} (h : longShape octets = .long name behind) :
    octets = Utf8.encode name ++ (behind.map (equalsSign :: ·)).getD [] := by
  have hparts :=
    List.takeWhile_append_dropWhile (p := fun c => decide (c ≠ equalsSign)) (l := octets)
  unfold longShape at h
  split_ifs at h with hempty
  split at h
  · cases h
  · rename_i found hfound
    rw [← Utf8.encode_of_decode? hfound] at hparts
    split at h
    · rename_i c value hbehind
      cases h
      have hequals : c = equalsSign := by
        have hhead := List.head?_dropWhile_not (fun c => decide (c ≠ equalsSign)) octets
        rw [hbehind] at hhead
        simpa using hhead
      rw [hbehind, hequals] at hparts
      exact hparts.symm
    · rename_i hbehind
      cases h
      rw [hbehind] at hparts
      exact hparts.symm

/-- An option with a value is a name and a value with an equals sign between them. -/
theorem eq_of_shape_long_some
    (h : shape argument = .long name (some value)) :
    argument = Utf8.encode ("--" ++ name ++ "=") ++ value := by
  obtain ⟨octets, rfl, hlong⟩ := exists_octets_of_shape h
  rw [eq_of_longShape hlong, Utf8.encode_append, Utf8.encode_append, encode_equalsSign]
  simp

/-- An option without a value is its name. -/
theorem eq_of_shape_long_none
    (h : shape argument = .long name none) :
    argument = Utf8.encode ("--" ++ name) := by
  obtain ⟨octets, rfl, hlong⟩ := exists_octets_of_shape h
  rw [eq_of_longShape hlong, Utf8.encode_append]
  simp

theorem eq_of_shape_separator
    (h : shape argument = .separator) :
    argument = Utf8.encode "--" := by
  rcases shape_cases argument with hplain | ⟨letter, hshort⟩ | ⟨octets, rfl, hlong⟩
  · rw [hplain] at h
    cases h
  · rw [hshort] at h
    cases h
  · rw [hlong, longShape] at h
    split_ifs at h with hempty
    · rw [List.isEmpty_iff.1 hempty, List.append_nil]
    · split at h
      · cases h
      · split at h <;> cases h

end Shapes

/-- The arguments in front of two hyphens alone. -/
def front (arguments : List Bytes) : List Bytes :=
  arguments.takeWhile (· ≠ Utf8.encode "--")

/-- Arguments give the option for the tag a value. -/
def GivesTag (arguments : List Bytes) (magic : String) : Prop :=
  Utf8.encode ("--magic=" ++ magic) ∈ front arguments ∨
    [Utf8.encode "--magic", Utf8.encode magic] <:+: front arguments

/-- Arguments give an option a value. -/
def Gives (name : String) (arguments : List Bytes) (value : Bytes) : Prop :=
  Utf8.encode ("--" ++ name ++ "=") ++ value ∈ front arguments ∨
    [Utf8.encode ("--" ++ name), value] <:+: front arguments

/-- What an argument is if it is no option: no hyphen in front, or nothing behind it. -/
def IsPlain (argument : Bytes) : Prop :=
  argument.head? ≠ some hyphen ∨ argument.length = 1

instance (argument : Bytes) : Decidable (IsPlain argument) :=
  inferInstanceAs (Decidable (_ ∨ _))

/-- The arguments that are paths: neither options nor values, or behind two hyphens alone. -/
def paths : List Bytes → List Bytes
  | [] => []
  | argument :: rest =>
      if argument = Utf8.encode "--" then
        rest
      else if argument = Utf8.encode "--magic" ∨ argument = Utf8.encode "--config" then
        paths rest.tail
      else if IsPlain argument then
        argument :: paths rest
      else
        paths rest
termination_by arguments => arguments.length

section Giving

variable {name : String} {argument next value : Bytes} {rest : List Bytes}

theorem gives_magic_iff {arguments : List Bytes} {magic : String} :
    Gives "magic" arguments (Utf8.encode magic) ↔ GivesTag arguments magic := by
  rw [GivesTag, Utf8.encode_append]
  exact Iff.rfl

theorem front_cons (h : argument ≠ Utf8.encode "--") :
    front (argument :: rest) = argument :: front rest :=
  List.takeWhile_cons_of_pos (decide_eq_true h)

theorem not_gives_nil :
    ¬ Gives name [] value := by
  simp [Gives, front]

theorem not_gives_separator :
    ¬ Gives name (Utf8.encode "--" :: rest) value := by
  simp [Gives, front]

theorem ne_of_shape_ne (h : shape argument ≠ shape next) :
    argument ≠ next := by
  rintro rfl
  exact h rfl

/-- What is another option, or none, gives an option no value. -/
theorem gives_cons_of_shape
    (hneeds : needsValue name = true)
    (hseparator : shape argument ≠ .separator)
    (hother : ∀ behind, shape argument ≠ .long name behind) :
    Gives name (argument :: rest) value ↔ Gives name rest value := by
  have hfront : argument ≠ Utf8.encode "--" :=
    ne_of_shape_ne (by rwa [shape_separator])
  have hequals : Utf8.encode ("--" ++ name ++ "=") ++ value ≠ argument :=
    (ne_of_shape_ne (by rw [shape_option_equals hneeds]; exact hother _)).symm
  have hname : Utf8.encode ("--" ++ name) ≠ argument :=
    (ne_of_shape_ne (by rw [shape_option (.inl hneeds)]; exact hother _)).symm
  simp only [Gives, front_cons hfront, List.mem_cons, hequals, false_or, List.infix_cons_iff,
    List.cons_prefix_cons, hname, false_and]

/-- An option gives itself what stands behind its equals sign. -/
theorem gives_equals_cons (hneeds : needsValue name = true) (behind : Bytes) :
    Gives name ((Utf8.encode ("--" ++ name ++ "=") ++ behind) :: rest) value ↔
      behind = value ∨ Gives name rest value := by
  have hfront : Utf8.encode ("--" ++ name ++ "=") ++ behind ≠ Utf8.encode "--" :=
    ne_of_shape_ne (by rw [shape_option_equals hneeds, shape_separator]; nofun)
  have hname : Utf8.encode ("--" ++ name) ≠ Utf8.encode ("--" ++ name ++ "=") ++ behind :=
    ne_of_shape_ne (by rw [shape_option_equals hneeds, shape_option (.inl hneeds)]; nofun)
  have hequals : Utf8.encode ("--" ++ name ++ "=") ++ value =
      Utf8.encode ("--" ++ name ++ "=") ++ behind ↔ behind = value := by
    rw [List.append_cancel_left_eq, eq_comm]
  simp only [Gives, front_cons hfront, List.mem_cons, hequals, List.infix_cons_iff,
    List.cons_prefix_cons, hname, false_and, false_or, or_assoc]

/-- An option alone gives itself the next argument. -/
theorem gives_next_cons (hneeds : needsValue name = true) (hnext : shape next = .plain) :
    Gives name (Utf8.encode ("--" ++ name) :: next :: rest) value ↔
      next = value ∨ Gives name rest value := by
  have hfront : Utf8.encode ("--" ++ name) ≠ Utf8.encode "--" :=
    ne_of_shape_ne (by rw [shape_option (.inl hneeds), shape_separator]; nofun)
  have hbehind : next ≠ Utf8.encode "--" :=
    ne_of_shape_ne (by rw [hnext, shape_separator]; nofun)
  have hequals : Utf8.encode ("--" ++ name ++ "=") ++ value ≠ Utf8.encode ("--" ++ name) :=
    ne_of_shape_ne (by rw [shape_option_equals hneeds, shape_option (.inl hneeds)]; nofun)
  have hrest : Gives name (next :: rest) value ↔ Gives name rest value :=
    gives_cons_of_shape hneeds (by rw [hnext]; nofun) (by rw [hnext]; nofun)
  rw [← hrest]
  simp only [Gives, front_cons hfront, front_cons hbehind,
    List.mem_cons (b := Utf8.encode ("--" ++ name)), hequals, false_or]
  rw [List.infix_cons_iff, List.cons_prefix_cons, List.cons_prefix_cons]
  simp only [List.nil_prefix, and_true, true_and, eq_comm, or_left_comm]

theorem not_mem_front_nil :
    Utf8.encode ("--" ++ name) ∉ front [] :=
  List.not_mem_nil

theorem not_mem_front_separator :
    Utf8.encode ("--" ++ name) ∉ front (Utf8.encode "--" :: rest) := by
  simp [front]

/-- An argument of another shape is not an option without a value. -/
theorem mem_front_cons_of_shape
    (hflag : isFlag name = true)
    (hseparator : shape argument ≠ .separator)
    (hother : shape argument ≠ .long name none) :
    Utf8.encode ("--" ++ name) ∈ front (argument :: rest) ↔
      Utf8.encode ("--" ++ name) ∈ front rest := by
  have hfront : argument ≠ Utf8.encode "--" :=
    ne_of_shape_ne (by rwa [shape_separator])
  have hname : Utf8.encode ("--" ++ name) ≠ argument :=
    (ne_of_shape_ne (by rw [shape_option (.inr hflag)]; exact hother)).symm
  rw [front_cons hfront, List.mem_cons, or_iff_right hname]

end Giving

section Paths

variable {argument : Bytes} {rest : List Bytes} {name : String}

theorem shape_eq_plain_iff :
    shape argument = .plain ↔ IsPlain argument := by
  fun_cases shape argument with
  | case1 first second rest hfirst => simp [IsPlain, hfirst]
  | case2 first second rest hfirst hsecond => simp_all [IsPlain]
  | case3 first second rest hfirst hsecond =>
      have hlong : longShape rest ≠ .plain := by
        fun_cases longShape rest <;> nofun
      simp_all [IsPlain]
  | case4 =>
      rename_i hshort
      rcases argument with - | ⟨octet, - | ⟨second, rest⟩⟩
      · simp [IsPlain]
      · simp [IsPlain]
      · exact absurd rfl (hshort octet second rest)

theorem paths_plain (h : shape argument = .plain) :
    paths (argument :: rest) = argument :: paths rest := by
  have hfront : argument ≠ Utf8.encode "--" :=
    ne_of_shape_ne (by rw [h, shape_separator]; nofun)
  have hvalue : ¬ (argument = Utf8.encode "--magic" ∨ argument = Utf8.encode "--config") := by
    rintro (rfl | rfl) <;> exact absurd h (by decide)
  rw [paths, if_neg hfront, if_neg hvalue, if_pos (shape_eq_plain_iff.1 h)]

/-- The argument behind an option that needs a value is no path. -/
theorem paths_value (hneeds : needsValue name = true) :
    paths (Utf8.encode ("--" ++ name) :: rest) = paths rest.tail := by
  have hfront : Utf8.encode ("--" ++ name) ≠ Utf8.encode "--" :=
    ne_of_shape_ne (by rw [shape_option (.inl hneeds), shape_separator]; nofun)
  have hvalue : Utf8.encode ("--" ++ name) = Utf8.encode "--magic" ∨
      Utf8.encode ("--" ++ name) = Utf8.encode "--config" := by
    rcases eq_of_needsValue hneeds with rfl | rfl
    · exact .inl rfl
    · exact .inr rfl
  rw [paths, if_neg hfront, if_pos hvalue]

theorem paths_other
    (hseparator : shape argument ≠ .separator)
    (hplain : shape argument ≠ .plain)
    (hother : ∀ name, needsValue name = true → shape argument ≠ .long name none) :
    paths (argument :: rest) = paths rest := by
  have hfront : argument ≠ Utf8.encode "--" :=
    ne_of_shape_ne (by rwa [shape_separator])
  have hvalue : ¬ (argument = Utf8.encode "--magic" ∨ argument = Utf8.encode "--config") := by
    have hmagic : needsValue "magic" = true := rfl
    have hconfig : needsValue "config" = true := rfl
    rintro (rfl | rfl)
    · exact hother "magic" hmagic (shape_option (.inl hmagic))
    · exact hother "config" hconfig (shape_option (.inl hconfig))
  rw [paths, if_neg hfront, if_neg hvalue, if_neg (mt shape_eq_plain_iff.2 hplain)]

end Paths

def Gathered.value? (gathered : Gathered) (name : String) : Option Bytes :=
  if name = "magic" then gathered.magic.map Utf8.encode else gathered.settings

def Gathered.flag (gathered : Gathered) (name : String) : Bool :=
  if name = "json" then gathered.json else gathered.restore

def Options.value? (options : Options) (name : String) : Option Bytes :=
  if name = "magic" then options.magic.map Utf8.encode else options.settings

def Options.flag (options : Options) (name : String) : Bool :=
  if name = "json" then options.json else options.restore

section Taking

variable {gathered next : Gathered}

/-- A path is taken once, and nothing else is taken with it. -/
theorem Gathered.eq_of_takeTree
    {path : Bytes} (h : gathered.takeTree path = .ok next) :
    gathered.tree = none ∧ next = { gathered with tree := some path } := by
  unfold takeTree at h
  split at h
  · cases h
  · rename_i hnone
    split at h
    · cases h
    · cases h
      exact ⟨hnone, rfl⟩

/-- All that is taken of paths is the one there is. -/
theorem Gathered.eq_of_foldlM_takeTree
    {paths : List Bytes} (h : paths.foldlM takeTree gathered = .ok next) :
    ∃ tree, next = { gathered with tree } ∧ tree.toList = gathered.tree.toList ++ paths := by
  induction paths generalizing gathered with
  | nil =>
      cases h
      exact ⟨_, rfl, (List.append_nil _).symm⟩
  | cons path paths ih =>
      rw [List.foldlM_cons] at h
      cases htake : gathered.takeTree path with
      | error error =>
          rw [htake] at h
          cases h
      | ok between =>
          rw [htake] at h
          obtain ⟨hnone, rfl⟩ := eq_of_takeTree htake
          obtain ⟨tree, rfl, htree⟩ := ih h
          refine ⟨tree, rfl, ?_⟩
          rw [htree, hnone]
          rfl

/-- An option takes its value once, and it takes no other's. -/
theorem Gathered.takeValue_cases
    {name other : String} {value : Bytes}
    (hneeds : needsValue name = true)
    (hother : needsValue other = true)
    (h : gathered.takeValue name value = .ok next) :
    next.tree = gathered.tree ∧
    (∀ flag, next.flag flag = gathered.flag flag) ∧
      (name = other ∧ gathered.value? other = none ∧ next.value? other = some value ∨
        name ≠ other ∧ next.value? other = gathered.value? other) := by
  unfold takeValue takeMagic takeSettings at h
  rcases eq_of_needsValue hneeds with rfl | rfl
  · rw [if_pos rfl] at h
    split at h
    · cases h
    · rename_i hnone
      split at h
      · cases h
      · rename_i magic hmagic
        cases h
        refine ⟨rfl, fun flag => rfl, ?_⟩
        rcases eq_of_needsValue hother with rfl | rfl
        · have hvalue : Utf8.encode magic = value := Utf8.encode_of_decode? hmagic
          exact .inl ⟨rfl, congrArg (Option.map Utf8.encode) hnone, congrArg some hvalue⟩
        · exact .inr ⟨by decide, rfl⟩
  · rw [if_neg (by decide)] at h
    split at h
    · cases h
    · rename_i hnone
      split at h
      · cases h
      · cases h
        refine ⟨rfl, fun flag => rfl, ?_⟩
        rcases eq_of_needsValue hother with rfl | rfl
        · exact .inr ⟨by decide, rfl⟩
        · exact .inl ⟨rfl, hnone, rfl⟩

/-- An option without a value sets itself and nothing else. -/
theorem Gathered.takeFlag_cases
    {name other : String}
    (hflag : isFlag name = true)
    (hother : isFlag other = true)
    (h : gathered.takeFlag name = .ok next) :
    next.tree = gathered.tree ∧
    (∀ option, next.value? option = gathered.value? option) ∧
      (name = other ∧ next.flag other = true ∨
        name ≠ other ∧ next.flag other = gathered.flag other) := by
  unfold takeFlag at h
  rcases eq_of_isFlag hflag with rfl | rfl
  · rw [if_pos rfl] at h
    split at h
    · cases h
    · cases h
      refine ⟨rfl, fun option => rfl, ?_⟩
      rcases eq_of_isFlag hother with rfl | rfl
      · exact .inl ⟨rfl, rfl⟩
      · exact .inr ⟨by decide, rfl⟩
  · rw [if_neg (by decide)] at h
    split at h
    · cases h
    · cases h
      refine ⟨rfl, fun option => rfl, ?_⟩
      rcases eq_of_isFlag hother with rfl | rfl
      · exact .inr ⟨by decide, rfl⟩
      · exact .inl ⟨rfl, rfl⟩

/-- A run has what has been read. -/
theorem Gathered.of_request
    {options : Options} (h : gathered.request = .ok (.run options)) :
    gathered.tree = some options.tree ∧
    (∀ name, options.value? name = gathered.value? name) ∧
      ∀ name, options.flag name = gathered.flag name := by
  unfold request at h
  split at h
  · cases h
  · rename_i htree
    cases h
    exact ⟨htree, fun name => rfl, fun name => rfl⟩

end Taking

section Reading

variable {gathered next : Gathered} {arguments rest : List Bytes} {options : Options}
  {name : String} {value : Bytes}

/-- If taking comes first, a run is read with what has been taken. -/
theorem exists_taken
    {taking : Except UsageError Gathered} {reading : Gathered → Except UsageError Request}
    (h : taking >>= reading = .ok (.run options)) :
    ∃ next, taking = .ok next ∧ reading next = .ok (.run options) := by
  cases taking with
  | error error => cases h
  | ok next => exact ⟨next, rfl, h⟩

/-- No option without a value needs one. -/
theorem not_needsValue_of_isFlag (h : isFlag name = true) :
    ¬ needsValue name = true := by
  rcases eq_of_isFlag h with rfl | rfl <;> decide

theorem readFrom_path
    {path : Bytes} (hplain : IsPlain path) (htake : gathered.takeTree path = .ok next) :
    readFrom gathered (path :: rest) = readFrom next rest := by
  simp only [readFrom, shape_eq_plain_iff.2 hplain, htake]
  rfl

theorem readFrom_separator
    {paths : List Bytes} (htake : paths.foldlM Gathered.takeTree gathered = .ok next) :
    readFrom gathered (Utf8.encode "--" :: paths) = next.request := by
  simp only [readFrom, shape_separator, htake]
  rfl

theorem readFrom_equals
    (hneeds : needsValue name = true)
    (htake : gathered.takeValue name value = .ok next) :
    readFrom gathered ((Utf8.encode ("--" ++ name ++ "=") ++ value) :: rest) =
      readFrom next rest := by
  simp only [readFrom, shape_option_equals hneeds, hneeds, if_true, htake]
  rfl

theorem readFrom_next
    (hneeds : needsValue name = true)
    (hplain : IsPlain value)
    (htake : gathered.takeValue name value = .ok next) :
    readFrom gathered (Utf8.encode ("--" ++ name) :: value :: rest) = readFrom next rest := by
  have hshape : shape (Utf8.encode ("--" ++ name)) = .long name none := shape_option (.inl hneeds)
  rw [readFrom]
  simp only [hshape, hneeds, if_true, shape_eq_plain_iff.2 hplain, htake]
  rfl

theorem readFrom_flag
    (hflag : isFlag name = true)
    (htake : gathered.takeFlag name = .ok next) :
    readFrom gathered (Utf8.encode ("--" ++ name) :: rest) = readFrom next rest := by
  have hshape : shape (Utf8.encode ("--" ++ name)) = .long name none := shape_option (.inr hflag)
  have hname : name ≠ "version" ∧ name ≠ "help" := by
    rcases eq_of_isFlag hflag with rfl | rfl <;> decide
  simp only [readFrom, hshape, not_needsValue_of_isFlag hflag, hflag, hname.1, hname.2, htake,
    Bool.true_or, if_true, if_false]
  rfl

/-- How arguments ask for a run, with what the arguments in front of them have said. -/
inductive Asks (options : Options) : Gathered → List Bytes → Prop where
  | done {gathered : Gathered} :
      gathered.request = .ok (.run options) →
      Asks options gathered []
  /-- A path. -/
  | path {gathered next : Gathered} {path : Bytes} {rest : List Bytes} :
      IsPlain path →
      gathered.takeTree path = .ok next →
      Asks options next rest →
      Asks options gathered (path :: rest)
  /-- Two hyphens alone, and nothing but paths behind them. -/
  | separator {gathered next : Gathered} {paths : List Bytes} :
      paths.foldlM Gathered.takeTree gathered = .ok next →
      next.request = .ok (.run options) →
      Asks options gathered (Utf8.encode "--" :: paths)
  /-- An option with its value behind an equals sign. -/
  | equals {gathered next : Gathered} {name : String} {value : Bytes} {rest : List Bytes} :
      needsValue name = true →
      gathered.takeValue name value = .ok next →
      Asks options next rest →
      Asks options gathered ((Utf8.encode ("--" ++ name ++ "=") ++ value) :: rest)
  /-- An option that takes the next argument. -/
  | next {gathered next : Gathered} {name : String} {value : Bytes} {rest : List Bytes} :
      needsValue name = true →
      IsPlain value →
      gathered.takeValue name value = .ok next →
      Asks options next rest →
      Asks options gathered (Utf8.encode ("--" ++ name) :: value :: rest)
  /-- An option without a value. -/
  | flag {gathered next : Gathered} {name : String} {rest : List Bytes} :
      isFlag name = true →
      gathered.takeFlag name = .ok next →
      Asks options next rest →
      Asks options gathered (Utf8.encode ("--" ++ name) :: rest)

theorem asks_of_readFrom (h : readFrom gathered arguments = .ok (.run options)) :
    Asks options gathered arguments := by
  -- Only the ways on which a request for a run is reached are left with something to show.
  fun_induction readFrom gathered arguments with
  | case1 gathered => exact .done h
  | case2 gathered argument rest hshape ih =>
      obtain ⟨next, htake, hread⟩ := exists_taken h
      exact .path (shape_eq_plain_iff.1 hshape) htake (ih next hread)
  | case3 gathered argument rest hshape =>
      obtain ⟨next, htake, hrequest⟩ := exists_taken h
      rw [eq_of_shape_separator hshape]
      exact .separator htake hrequest
  | case7 gathered argument other hneeds behind rest hshape ih =>
      obtain ⟨next, htake, hread⟩ := exists_taken h
      rw [eq_of_shape_long_some hshape]
      exact .equals hneeds htake (ih next hread)
  | case9 gathered argument other hneeds value rest hplain hshape ih =>
      obtain ⟨next, htake, hread⟩ := exists_taken h
      rw [eq_of_shape_long_none hshape]
      exact .next hneeds (shape_eq_plain_iff.1 hplain) htake (ih next hread)
  | case14 gathered argument rest other hneeds hknown hversion hhelp hshape ih =>
      obtain ⟨next, htake, hread⟩ := exists_taken h
      have hflag : isFlag other = true := by
        simpa [hversion, hhelp] using hknown
      rw [eq_of_shape_long_none hshape]
      exact .flag hflag htake (ih next hread)
  | _ => cases h

theorem readFrom_of_asks (h : Asks options gathered arguments) :
    readFrom gathered arguments = .ok (.run options) := by
  induction h with
  | done hrequest => exact hrequest
  | path hplain htake _ ih => rw [readFrom_path hplain htake, ih]
  | separator htake hrequest => rw [readFrom_separator htake, hrequest]
  | equals hneeds htake _ ih => rw [readFrom_equals hneeds htake, ih]
  | next hneeds hplain htake _ ih => rw [readFrom_next hneeds hplain htake, ih]
  | flag hflag htake _ ih => rw [readFrom_flag hflag htake, ih]

/-- Which arguments ask for a run, and for which. -/
theorem ofArguments_eq_ok_run_iff :
    Request.ofArguments arguments = .ok (.run options) ↔ Asks options .empty arguments :=
  ⟨asks_of_readFrom, readFrom_of_asks⟩

/-- The value of an option was read before or stands in the arguments. -/
theorem Asks.value_iff
    (hneeds : needsValue name = true) (h : Asks options gathered arguments) (value : Bytes) :
    options.value? name = some value ↔
      gathered.value? name = some value ∨ Gives name arguments value := by
  induction h with
  | done hrequest => rw [(Gathered.of_request hrequest).2.1, or_iff_left not_gives_nil]
  | path hplain htake _ ih =>
      obtain ⟨-, rfl⟩ := Gathered.eq_of_takeTree htake
      have hshape := shape_eq_plain_iff.2 hplain
      rw [ih, gives_cons_of_shape hneeds (by rw [hshape]; nofun) (by rw [hshape]; nofun)]
      rfl
  | separator htake hrequest =>
      obtain ⟨tree, rfl, -⟩ := Gathered.eq_of_foldlM_takeTree htake
      rw [(Gathered.of_request hrequest).2.1, or_iff_left not_gives_separator]
      rfl
  | @equals _ _ other behind _ hother htake _ ih =>
      have hshape := shape_option_equals hother behind
      obtain ⟨-, -, ⟨rfl, hnone, hvalue⟩ | ⟨hname, hkept⟩⟩ :=
        Gathered.takeValue_cases hother hneeds htake
      · rw [ih, hnone, hvalue, gives_equals_cons hneeds]
        simp only [Option.some.injEq, reduceCtorEq, false_or]
      · rw [ih, hkept,
          gives_cons_of_shape hneeds (by rw [hshape]; nofun) (by rw [hshape]; simp [hname])]
  | @next _ _ other behind _ hother hplain htake _ ih =>
      have hshape : shape (Utf8.encode ("--" ++ other)) = .long other none :=
        shape_option (.inl hother)
      have hbehind := shape_eq_plain_iff.2 hplain
      obtain ⟨-, -, ⟨rfl, hnone, hvalue⟩ | ⟨hname, hkept⟩⟩ :=
        Gathered.takeValue_cases hother hneeds htake
      · rw [ih, hnone, hvalue, gives_next_cons hneeds hbehind]
        simp only [Option.some.injEq, reduceCtorEq, false_or]
      · rw [ih, hkept,
          gives_cons_of_shape hneeds (by rw [hshape]; nofun) (by rw [hshape]; simp [hname]),
          gives_cons_of_shape hneeds (by rw [hbehind]; nofun) (by rw [hbehind]; nofun)]
  | @flag _ _ other _ hflag htake _ ih =>
      have hshape : shape (Utf8.encode ("--" ++ other)) = .long other none :=
        shape_option (.inr hflag)
      have hname : other ≠ name := by
        rintro rfl
        exact not_needsValue_of_isFlag hflag hneeds
      rw [ih, (Gathered.takeFlag_cases hflag hflag htake).2.1,
        gives_cons_of_shape hneeds (by rw [hshape]; nofun) (by rw [hshape]; simp [hname])]

/-- A run has the value that its arguments give an option, if they do. -/
theorem value_of_ofArguments
    (hneeds : needsValue name = true)
    (h : Request.ofArguments arguments = .ok (.run options)) (value : Bytes) :
    options.value? name = some value ↔ Gives name arguments value := by
  have hnone : ¬ Gathered.empty.value? name = some value := by
    rcases eq_of_needsValue hneeds with rfl | rfl <;> nofun
  rw [(ofArguments_eq_ok_run_iff.1 h).value_iff hneeds, or_iff_right hnone]

/-- A run goes by the value that its arguments give the option for the tag, if they do. -/
theorem magic_of_ofArguments
    (h : Request.ofArguments arguments = .ok (.run options)) (magic : String) :
    options.magic = some magic ↔ GivesTag arguments magic := by
  have hneeds : needsValue "magic" = true := rfl
  have hvalue : options.value? "magic" = options.magic.map Utf8.encode := rfl
  rw [← gives_magic_iff, ← value_of_ofArguments hneeds h, hvalue, Option.map_eq_some_iff]
  simp only [Utf8.encode_inj, exists_eq_right]

/-- The settings of a run are those that its arguments name, if they do. -/
theorem settings_of_ofArguments
    (h : Request.ofArguments arguments = .ok (.run options)) (path : Bytes) :
    options.settings = some path ↔ Gives "config" arguments path := by
  have hneeds : needsValue "config" = true := rfl
  exact value_of_ofArguments hneeds h path

/-- An option without a value was read before or stands in the arguments. -/
theorem Asks.flag_iff
    (hflag : isFlag name = true) (h : Asks options gathered arguments) :
    options.flag name = true ↔
      gathered.flag name = true ∨ Utf8.encode ("--" ++ name) ∈ front arguments := by
  induction h with
  | done hrequest => rw [(Gathered.of_request hrequest).2.2, or_iff_left not_mem_front_nil]
  | path hplain htake _ ih =>
      obtain ⟨-, rfl⟩ := Gathered.eq_of_takeTree htake
      have hshape := shape_eq_plain_iff.2 hplain
      rw [ih, mem_front_cons_of_shape hflag (by rw [hshape]; nofun) (by rw [hshape]; nofun)]
      rfl
  | separator htake hrequest =>
      obtain ⟨tree, rfl, -⟩ := Gathered.eq_of_foldlM_takeTree htake
      rw [(Gathered.of_request hrequest).2.2, or_iff_left not_mem_front_separator]
      rfl
  | @equals _ _ other behind _ hother htake _ ih =>
      have hshape := shape_option_equals hother behind
      rw [ih, (Gathered.takeValue_cases hother hother htake).2.1,
        mem_front_cons_of_shape hflag (by rw [hshape]; nofun) (by rw [hshape]; nofun)]
  | @next _ _ other behind _ hother hplain htake _ ih =>
      have hshape : shape (Utf8.encode ("--" ++ other)) = .long other none :=
        shape_option (.inl hother)
      have hbehind := shape_eq_plain_iff.2 hplain
      have hname : other ≠ name := by
        rintro rfl
        exact not_needsValue_of_isFlag hflag hother
      rw [ih, (Gathered.takeValue_cases hother hother htake).2.1,
        mem_front_cons_of_shape hflag (by rw [hshape]; nofun) (by rw [hshape]; simp [hname]),
        mem_front_cons_of_shape hflag (by rw [hbehind]; nofun) (by rw [hbehind]; nofun)]
  | @flag _ _ other _ hother htake _ ih =>
      have hshape : shape (Utf8.encode ("--" ++ other)) = .long other none :=
        shape_option (.inr hother)
      obtain ⟨-, -, ⟨rfl, hset⟩ | ⟨hname, hkept⟩⟩ :=
        Gathered.takeFlag_cases hother hflag htake
      · have hfront : Utf8.encode ("--" ++ other) ≠ Utf8.encode "--" :=
          ne_of_shape_ne (by rw [hshape, shape_separator]; nofun)
        rw [ih, hset, front_cons hfront]
        simp
      · rw [ih, hkept,
          mem_front_cons_of_shape hflag (by rw [hshape]; nofun) (by rw [hshape]; simp [hname])]

/-- A run has the options without a value that stand in its arguments. -/
theorem flag_of_ofArguments
    (hflag : isFlag name = true)
    (h : Request.ofArguments arguments = .ok (.run options)) :
    options.flag name = true ↔ Utf8.encode ("--" ++ name) ∈ front arguments := by
  have hnone : ¬ Gathered.empty.flag name = true := by
    rcases eq_of_isFlag hflag with rfl | rfl <;> decide
  rw [(ofArguments_eq_ok_run_iff.1 h).flag_iff hflag, or_iff_right hnone]

theorem json_of_ofArguments (h : Request.ofArguments arguments = .ok (.run options)) :
    options.json = true ↔ Utf8.encode "--json" ∈ front arguments := by
  have hflag : isFlag "json" = true := rfl
  exact flag_of_ofArguments hflag h

theorem restore_of_ofArguments (h : Request.ofArguments arguments = .ok (.run options)) :
    options.restore = true ↔ Utf8.encode "--restore" ∈ front arguments := by
  have hflag : isFlag "restore" = true := rfl
  exact flag_of_ofArguments hflag h

/-- The path of a run was read before or stands in the arguments, and there is no other. -/
theorem Asks.paths (h : Asks options gathered arguments) :
    gathered.tree.toList ++ CommandLine.paths arguments = [options.tree] := by
  induction h with
  | done hrequest =>
      rw [(Gathered.of_request hrequest).1, CommandLine.paths]
      rfl
  | path hplain htake _ ih =>
      obtain ⟨hnone, rfl⟩ := Gathered.eq_of_takeTree htake
      rw [paths_plain (shape_eq_plain_iff.2 hplain), hnone]
      exact ih
  | separator htake hrequest =>
      obtain ⟨tree, rfl, htree⟩ := Gathered.eq_of_foldlM_takeTree htake
      have hrun : tree = some options.tree := (Gathered.of_request hrequest).1
      rw [CommandLine.paths, if_pos rfl, ← htree, hrun]
      rfl
  | @equals _ _ other behind rest hother htake _ ih =>
      have hshape := shape_option_equals hother behind
      rw [paths_other (by rw [hshape]; nofun) (by rw [hshape]; nofun)
          fun name _ => by rw [hshape]; nofun,
        ← (Gathered.takeValue_cases hother hother htake).1]
      exact ih
  | next hother _ htake _ ih =>
      rw [paths_value hother, ← (Gathered.takeValue_cases hother hother htake).1]
      exact ih
  | @flag _ _ other rest hother htake _ ih =>
      have hshape : shape (Utf8.encode ("--" ++ other)) = .long other none :=
        shape_option (.inr hother)
      have hsilent : CommandLine.paths (Utf8.encode ("--" ++ other) :: rest) =
          CommandLine.paths rest :=
        paths_other (by rw [hshape]; nofun) (by rw [hshape]; nofun) fun name hneeds => by
          rw [hshape]
          rintro ⟨⟩
          exact not_needsValue_of_isFlag hother hneeds
      rw [hsilent, ← (Gathered.takeFlag_cases hother hother htake).1]
      exact ih

/-- The one path among the arguments of a run is that of its device tree. -/
theorem paths_of_ofArguments (h : Request.ofArguments arguments = .ok (.run options)) :
    paths arguments = [options.tree] :=
  (ofArguments_eq_ok_run_iff.1 h).paths

end Reading

section Writing

variable {rest : List Bytes} {gathered next : Gathered} {name : String}

/-- The argument for the value of an option, if there is one. -/
def spelledValue (name : String) (value : Option Bytes) : List Bytes :=
  (value.map (Utf8.encode ("--" ++ name ++ "=") ++ ·)).toList

/-- The argument for an option without a value, if it is to be set. -/
def spelledFlag (name : String) (given : Bool) : List Bytes :=
  if given then [Utf8.encode ("--" ++ name)] else []

/-- Arguments that ask for a run with these options. -/
def Options.spelled (options : Options) : List Bytes :=
  spelledValue "magic" (options.magic.map Utf8.encode) ++
    (spelledValue "config" options.settings ++
      (spelledFlag "json" options.json ++
        (spelledFlag "restore" options.restore ++ [Utf8.encode "--", options.tree])))

theorem readFrom_spelledValue
    {value : Option Bytes} (hneeds : needsValue name = true)
    (hnone : value = none → next = gathered)
    (hsome : ∀ found, value = some found → gathered.takeValue name found = .ok next) :
    readFrom gathered (spelledValue name value ++ rest) = readFrom next rest := by
  cases value with
  | none =>
      rw [hnone rfl]
      rfl
  | some found => exact readFrom_equals hneeds (hsome found rfl)

theorem readFrom_spelledFlag
    {given : Bool} (hflag : isFlag name = true)
    (hfalse : given = false → next = gathered)
    (htrue : given = true → gathered.takeFlag name = .ok next) :
    readFrom gathered (spelledFlag name given ++ rest) = readFrom next rest := by
  cases given with
  | false =>
      rw [hfalse rfl]
      rfl
  | true => exact readFrom_flag hflag (htrue rfl)

/--
All options can be asked for, whatever the text of the tag is and whatever octets the paths are made
of, as long as no path is empty.
-/
theorem ofArguments_spelled
    {options : Options} (htree : options.tree ≠ []) (hsettings : options.settings ≠ some []) :
    Request.ofArguments options.spelled = .ok (.run options) := by
  obtain ⟨tree, magic, settings, json, restore⟩ := options
  have hmagic (text : Bytes) (htext : magic.map Utf8.encode = some text) :
      Gathered.empty.takeValue "magic" text = .ok ⟨none, magic, none, false, false⟩ := by
    obtain ⟨found, rfl, rfl⟩ := Option.map_eq_some_iff.1 htext
    simp only [Gathered.takeValue, Gathered.takeMagic, Gathered.empty, Utf8.decode?_encode,
      if_true]
  have hpath (path : Bytes) (hnamed : settings = some path) :
      Gathered.takeValue ⟨none, magic, none, false, false⟩ "config" path =
        .ok ⟨none, magic, settings, false, false⟩ := by
    subst hnamed
    have hpath : path ≠ [] := fun hempty => hsettings (congrArg some hempty)
    simp [Gathered.takeValue, Gathered.takeSettings, hpath]
  have hjson (hgiven : json = true) :
      Gathered.takeFlag ⟨none, magic, settings, false, false⟩ "json" =
        .ok ⟨none, magic, settings, json, false⟩ := by
    simp [Gathered.takeFlag, hgiven]
  have hrestore (hgiven : restore = true) :
      Gathered.takeFlag ⟨none, magic, settings, json, false⟩ "restore" =
        .ok ⟨none, magic, settings, json, restore⟩ := by
    simp [Gathered.takeFlag, hgiven]
  have hfound : [tree].foldlM Gathered.takeTree ⟨none, magic, settings, json, restore⟩ =
      .ok ⟨some tree, magic, settings, json, restore⟩ := by
    rw [List.foldlM_cons]
    simp [Gathered.takeTree, htree]
  rw [Request.ofArguments, Options.spelled,
    readFrom_spelledValue rfl (by simp [Gathered.empty]) hmagic,
    readFrom_spelledValue rfl (by rintro rfl; rfl) hpath,
    readFrom_spelledFlag rfl (by rintro rfl; rfl) hjson,
    readFrom_spelledFlag rfl (by rintro rfl; rfl) hrestore,
    readFrom_separator hfound]
  rfl

end Writing

end CommandLine
end FirmwareVariables
