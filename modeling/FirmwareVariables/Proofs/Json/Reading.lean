import FirmwareVariables.Proofs.Json.Reader

/-!
# Reading JSON back

Values are written over several lines, with the items of a list or an object between brackets.
Brackets are read back if each item is, which is what `Json.items_spelled` and
`Json.enclosed_bracketed` say, for lists and objects alike. `Json.ReadBack` is what there is to show
for each kind of value.

The main statement, `Json.read?_pretty`, says that the text of a value is read as this value. It
holds for values without floating numbers, which are those with `Json.Exact`.
-/

namespace FirmwareVariables
namespace Json

/-- A value without floating numbers. -/
inductive Exact : Json → Prop where
  | null : Exact null
  | boolean (value : Bool) : Exact (boolean value)
  | integer (value : Int) : Exact (integer value)
  | text (value : String) : Exact (text value)
  | list {values : List Json} (h : ∀ value ∈ values, Exact value) : Exact (list values)
  | object {members : List (String × Json)} (h : ∀ member ∈ members, Exact member.2) :
      Exact (object members)

attribute [simp] Exact.text

@[simp] theorem exact_natural (n : Nat) :
    (natural n).Exact :=
  .integer n

section Items

variable {α : Type} {closing : Char} {blanks last rest : List Char}

theorem noDigitAhead_cons {c : Char} (hc : c.isDigit = false) (rest : List Char) :
    NoDigitAhead (c :: rest) := by
  intro first hfirst
  cases hfirst
  exact hc

/-- Blanks in front of what is no digit are no digit either. -/
theorem noDigitAhead_append
    (hblanks : ∀ c ∈ blanks, isBlank c = true) (hrest : NoDigitAhead rest) :
    NoDigitAhead (blanks ++ rest) := by
  cases blanks with
  | nil => exact hrest
  | cons c blanks =>
      have hc := hblanks c List.mem_cons_self
      exact noDigitAhead_cons (isDigit_of_isBlank hc) _

/-- A character that closes a list or an object. -/
structure Closes (closing : Char) : Prop where
  noComma : closing ≠ ','
  noBlank : isBlank closing = false
  noDigit : closing.isDigit = false

theorem closes_list :
    Closes ']' :=
  ⟨by decide, rfl, rfl⟩

theorem closes_object :
    Closes '\x7d' :=
  ⟨by decide, rfl, rfl⟩

/-- Items are read back if each one is. -/
theorem items_spelled
    {item : Reader α} (spell : α → List Char)
    (hclosing : Closes closing)
    (hlast : ∀ c ∈ last, isBlank c = true)
    {fuel : Nat} {first : α} {others : List α}
    (hfuel : others.length < fuel)
    (hitem : ∀ found ∈ first :: others, ∀ behind, NoDigitAhead behind →
      item (blanks ++ (spell found ++ behind)) = some (found, behind))
    (rest : List Char) :
    items item closing fuel
        (blanks ++ (spell first ++
          (others.flatMap (fun other => ',' :: (blanks ++ spell other)) ++
            (last ++ closing :: rest)))) =
      some (first :: others, rest) := by
  have hcomma : isBlank ',' = false := rfl
  induction others generalizing fuel first with
  | nil =>
      cases fuel with
      | zero => cases hfuel
      | succ fuel =>
          have hend : NoDigitAhead (last ++ closing :: rest) :=
            noDigitAhead_append hlast (noDigitAhead_cons hclosing.noDigit rest)
          have hread := hitem first List.mem_cons_self _ hend
          rw [List.flatMap_nil, List.nil_append, items, hread]
          simp only [Option.bind_eq_bind, Option.bind_some, skipBlanks_append hlast,
            skipBlanks_cons hclosing.noBlank, if_true]
  | cons second others ih =>
      cases fuel with
      | zero => cases hfuel
      | succ fuel =>
          have hlater := ih (Nat.lt_of_succ_lt_succ hfuel)
            fun found hmem => hitem found (List.mem_cons_of_mem first hmem)
          have hread := hitem first List.mem_cons_self
          rw [List.flatMap_cons, List.append_assoc, List.cons_append, List.append_assoc, items,
            hread _ (noDigitAhead_cons rfl _)]
          simp only [Option.bind_eq_bind, Option.bind_some, skipBlanks_cons hcomma,
            if_neg hclosing.noComma.symm, if_true, hlater, Option.pure_def]

end Items

section Lines

theorem prettyItems_eq (level : Nat) (values : List Json) :
    prettyItems level values = values.map (pretty level) := by
  induction values with
  | nil => rw [prettyItems, List.map_nil]
  | cons value values ih => rw [prettyItems, ih, List.map_cons]

def memberText (level : Nat) (member : String × Json) : String :=
  quote member.1 ++ ": " ++ pretty level member.2

theorem toList_memberText (level : Nat) (member : String × Json) :
    (memberText level member).toList =
      (quote member.1).toList ++ (':' :: ' ' :: (pretty level member.2).toList) := by
  have hcolon : ": ".toList = [':', ' '] := rfl
  rw [memberText, String.toList_append, String.toList_append, hcolon, List.append_assoc]
  rfl

theorem prettyMembers_eq (level : Nat) (members : List (String × Json)) :
    prettyMembers level members = members.map (memberText level) := by
  induction members with
  | nil => rw [prettyMembers, List.map_nil]
  | cons member members ih => rw [prettyMembers, ih, List.map_cons, memberText]

theorem intercalate_cons_eq_append {α : Type} (separator first : List α) (others : List (List α)) :
    separator.intercalate (first :: others) =
      first ++ others.flatMap fun other => separator ++ other := by
  induction others generalizing first with
  | nil => rw [List.intercalate_singleton, List.flatMap_nil, List.append_nil]
  | cons second others ih =>
      rw [List.intercalate_cons_cons, ih, List.flatMap_cons, List.append_assoc, List.append_assoc]

/-- Items between brackets stand on lines of their own. -/
theorem toList_bracketed_cons
    (opening closing : String) (level : Nat) (first : String) (others : List String) :
    (bracketed opening closing level (first :: others)).toList =
      opening.toList ++
        ((newline (level + 1)).toList ++ (first.toList ++
          (others.flatMap (fun other => ',' :: ((newline (level + 1)).toList ++ other.toList)) ++
            ((newline level).toList ++ closing.toList)))) := by
  have hcomma : ",".toList = [','] := rfl
  simp only [bracketed, List.isEmpty_cons, Bool.false_eq_true, if_false, String.toList_append,
    String.toList_intercalate, List.map_cons, intercalate_cons_eq_append, hcomma,
    List.flatMap_map, List.append_assoc, List.cons_append, List.nil_append]

/-- There is room between brackets for each item, and for as many items as there are. -/
theorem length_bracketed
    (opening closing : String) (level : Nat) (lines : List String) :
    let total := (bracketed opening closing level lines).toList.length
    (∀ line ∈ lines, opening.toList.length + line.toList.length ≤ total) ∧
      opening.toList.length + lines.length ≤ total := by
  have hroom (others : List String) :
      let spelled := others.flatMap fun other =>
        ',' :: ((newline (level + 1)).toList ++ other.toList)
      (∀ other ∈ others, other.toList.length ≤ spelled.length) ∧
        others.length ≤ spelled.length := by
    induction others with
    | nil => exact ⟨by simp, Nat.le_refl 0⟩
    | cons other others ih =>
        simp only [List.forall_mem_cons, List.flatMap_cons, List.length_append, List.length_cons]
        refine ⟨⟨by omega, fun line hline => ?_⟩, by omega⟩
        have hline := ih.1 line hline
        omega
  cases lines with
  | nil => simp [bracketed]
  | cons first others =>
      obtain ⟨hothers, hcount⟩ := hroom others
      have hnewline : 0 < (newline (level + 1)).toList.length := by
        rw [newline, String.toList_ofList, List.length_cons]
        omega
      simp only [toList_bracketed_cons, List.length_append, List.forall_mem_cons, List.length_cons]
      refine ⟨⟨by omega, fun line hline => ?_⟩, by omega⟩
      have hline := hothers line hline
      omega

end Lines

section Values

variable {blanks rest : List Char}

/-- A number begins with a digit or its sign. -/
theorem exists_toString_eq_cons (value : Int) :
    ∃ c chars, (toString value).toList = c :: chars ∧ (c = '-' ∨ c.isDigit = true) := by
  cases value with
  | ofNat n =>
      rw [toList_toString_ofNat]
      obtain ⟨c, chars, hdigits⟩ :=
        List.exists_cons_of_ne_nil (Nat.toDigits_ne_nil (b := 10) (n := n))
      have hdigit : c.isDigit = true :=
        Nat.isDigit_of_mem_toDigits (n := n) (by decide) (by decide) (hdigits ▸ List.mem_cons_self)
      exact ⟨c, chars, hdigits, .inr hdigit⟩
  | negSucc n => exact ⟨'-', _, toList_toString_negSucc n, .inl rfl⟩

theorem toList_pretty_list (level : Nat) (values : List Json) :
    (pretty level (.list values)).toList =
      (bracketed "[" "]" level (values.map (pretty (level + 1)))).toList := by
  rw [pretty, prettyItems_eq]

theorem toList_pretty_object (level : Nat) (members : List (String × Json)) :
    (pretty level (.object members)).toList =
      (bracketed "\x7b" "\x7d" level
        (members.map (memberText (level + 1)))).toList := by
  rw [pretty, prettyMembers_eq]

theorem exists_bracketed_eq_append (opening closing : String) (level : Nat) (lines : List String) :
    ∃ chars, (bracketed opening closing level lines).toList = opening.toList ++ chars := by
  cases lines with
  | nil => exact ⟨closing.toList, by simp [bracketed]⟩
  | cons first others => exact ⟨_, toList_bracketed_cons opening closing level first others⟩

theorem toList_null :
    "null".toList = ['n', 'u', 'l', 'l'] := by
  rfl

theorem toList_true :
    "true".toList = ['t', 'r', 'u', 'e'] := by
  rfl

theorem toList_false :
    "false".toList = ['f', 'a', 'l', 's', 'e'] := by
  rfl

/-- What a value begins with is no blank and closes nothing. -/
theorem exists_pretty_eq_cons {found : Json} (hexact : found.Exact) (level : Nat) :
    ∃ c chars, (pretty level found).toList = c :: chars ∧ isBlank c = false ∧ c ≠ ']' := by
  cases hexact with
  | null => exact ⟨'n', _, by rw [pretty, toList_null], rfl, by decide⟩
  | boolean found =>
      cases found with
      | true => exact ⟨'t', _, by rw [pretty, if_pos rfl, toList_true], rfl, by decide⟩
      | false =>
          exact ⟨'f', _, by rw [pretty, if_neg Bool.false_ne_true, toList_false], rfl, by decide⟩
  | integer found =>
      obtain ⟨c, chars, htext, hc⟩ := exists_toString_eq_cons found
      refine ⟨c, chars, by rw [pretty, htext], ?_⟩
      rcases hc with rfl | hdigit
      · exact ⟨rfl, by decide⟩
      · exact ⟨isBlank_of_isDigit hdigit, by rintro rfl; cases hdigit⟩
  | text found =>
      exact ⟨'"', _, by rw [pretty, toList_quote], rfl, by decide⟩
  | @list values h =>
      obtain ⟨chars, htext⟩ :=
        exists_bracketed_eq_append "[" "]" level (values.map (pretty (level + 1)))
      exact ⟨'[', chars, by rw [toList_pretty_list, htext]; rfl, rfl, by decide⟩
  | @object members h =>
      obtain ⟨chars, htext⟩ := exists_bracketed_eq_append "\x7b" "\x7d" level
        (members.map (memberText (level + 1)))
      exact ⟨'\x7b', chars, by rw [toList_pretty_object, htext]; rfl, rfl, by decide⟩

theorem exists_memberText_eq_cons (level : Nat) (member : String × Json) :
    ∃ c chars, (memberText level member).toList = c :: chars ∧ isBlank c = false ∧ c ≠ '\x7d' := by
  exact ⟨'"', _, by rw [toList_memberText, toList_quote, List.cons_append], rfl, by decide⟩

/-- Items behind an opening bracket are read back if each one is. -/
theorem enclosed_bracketed
    {α : Type} {item : Reader α} {closing : Char}
    (spell : α → String) (hclosing : Closes closing)
    (opening : String) (level : Nat)
    {found : List α} {fuel : Nat}
    (hfuel : found.length ≤ fuel)
    (hhead : ∀ a ∈ found,
      ∃ c chars, (spell a).toList = c :: chars ∧ isBlank c = false ∧ c ≠ closing)
    (hitem : ∀ a ∈ found, ∀ blanks behind,
      (∀ c ∈ blanks, isBlank c = true) → NoDigitAhead behind →
        item (blanks ++ ((spell a).toList ++ behind)) = some (a, behind)) :
    ∃ chars,
      (bracketed opening (String.singleton closing) level (found.map spell)).toList =
        opening.toList ++ chars ∧
      ∀ rest, enclosed item closing fuel (chars ++ rest) = some (found, rest) := by
  cases found with
  | nil =>
      refine ⟨[closing], by simp [bracketed], fun rest => ?_⟩
      rw [List.singleton_append, enclosed, skipBlanks_cons hclosing.noBlank]
      exact if_pos rfl
  | cons first others =>
      rw [List.map_cons]
      refine ⟨_, toList_bracketed_cons opening (String.singleton closing) level (spell first)
        (others.map spell), fun rest => ?_⟩
      obtain ⟨c, chars, hfirst, hblank, hother⟩ := hhead first List.mem_cons_self
      have hlast : ∀ c ∈ (newline level).toList, isBlank c = true := isBlank_of_mem_newline
      have hitems := items_spelled (fun a => (spell a).toList) hclosing hlast hfuel
        (fun a ha behind => hitem a ha (newline (level + 1)).toList behind isBlank_of_mem_newline)
        rest
      rw [enclosed]
      simp only [List.append_assoc, List.flatMap_map, String.toList_singleton,
        skipBlanks_append isBlank_of_mem_newline, hfirst, List.cons_append, skipBlanks_cons hblank,
        if_neg hother]
      simp only [hfirst, List.cons_append] at hitems
      exact hitems

/-- A value is read by what it begins with. -/
theorem value_cons {c : Char} (hblanks : ∀ c ∈ blanks, isBlank c = true) (hc : isBlank c = false)
    (fuel : Nat) :
    value (fuel + 1) (blanks ++ c :: rest) =
      if c = '"' then
        (quoted (c :: rest)).map fun (found, rest) => (.text found, rest)
      else if c = '[' then
        (enclosed (value fuel) ']' fuel rest).map fun (values, rest) => (.list values, rest)
      else if c = '\x7b' then
        (enclosed (member (value fuel)) '\x7d' fuel rest).map fun (members, rest) =>
          (.object members, rest)
      else
        scalar (c :: rest) := by
  rw [value]
  simp only [skipBlanks_append hblanks, skipBlanks_cons hc]

/-- What begins like a number is no word. -/
theorem scalar_eq_number
    {c : Char} (hc : c = '-' ∨ c.isDigit = true) (chars : List Char) :
    scalar (c :: chars) = number (c :: chars) := by
  have hother (first : Char) (hfirst : first ∈ ['n', 't', 'f']) (word : List Char) :
      Toml.behind? (first :: word) (c :: chars) = none := by
    have hne : (first == c) = false := by
      rw [beq_eq_false_iff_ne]
      rintro rfl
      rcases hc with rfl | hdigit
      · exact absurd hfirst (by decide)
      · simp only [List.mem_cons, List.not_mem_nil, or_false] at hfirst
        rcases hfirst with rfl | rfl | rfl <;> cases hdigit
    simp only [Toml.behind?, List.isPrefixOf_cons_cons, hne, Bool.false_and, Bool.false_eq_true,
      if_false]
  simp only [scalar, words, List.findSome?_cons, List.findSome?_nil, toList_null, toList_true,
    toList_false, hother 'n' (by decide), hother 't' (by decide), hother 'f' (by decide),
    Option.map_none, Option.none_or]

/-- The text of a value at a level is read as this value, wherever it stands. -/
def ReadBack (level : Nat) (found : Json) : Prop :=
  ∀ ⦃fuel : Nat⦄ ⦃blanks behind : List Char⦄,
    (∀ c ∈ blanks, isBlank c = true) →
    (pretty level found).toList.length ≤ fuel →
    NoDigitAhead behind →
    value fuel (blanks ++ ((pretty level found).toList ++ behind)) = some (found, behind)

/-- What begins with no quote and no bracket is a word or a number. -/
theorem readBack_scalar
    {level : Nat} {found : Json} {c : Char} {chars : List Char}
    (htext : (pretty level found).toList = c :: chars)
    (hfirst : isBlank c = false ∧ c ≠ '"' ∧ c ≠ '[' ∧ c ≠ '\x7b')
    (hscalar : ∀ behind, NoDigitAhead behind →
      scalar (c :: chars ++ behind) = some (found, behind)) :
    ReadBack level found := by
  intro fuel blanks behind hblanks hfuel hbehind
  obtain ⟨hblank, hquote, hlist, hobject⟩ := hfirst
  rw [htext] at hfuel ⊢
  cases fuel with
  | zero => cases hfuel
  | succ fuel =>
      rw [List.cons_append, value_cons hblanks hblank, if_neg hquote, if_neg hlist,
        if_neg hobject]
      exact hscalar behind hbehind

theorem readBack_boolean (level : Nat) (found : Bool) :
    ReadBack level (.boolean found) := by
  cases found with
  | true =>
      have htext : (pretty level (.boolean true)).toList = ['t', 'r', 'u', 'e'] := by
        rw [pretty, if_pos rfl, toList_true]
      exact readBack_scalar htext (by decide) fun _ _ => rfl
  | false =>
      have htext : (pretty level (.boolean false)).toList = ['f', 'a', 'l', 's', 'e'] := by
        rw [pretty, if_neg Bool.false_ne_true, toList_false]
      exact readBack_scalar htext (by decide) fun _ _ => rfl

theorem readBack_integer (level : Nat) (found : Int) :
    ReadBack level (.integer found) := by
  obtain ⟨c, chars, htext, hc⟩ := exists_toString_eq_cons found
  have hpretty : (pretty level (.integer found)).toList = c :: chars := by
    rw [pretty, htext]
  have hfirst : isBlank c = false ∧ c ≠ '"' ∧ c ≠ '[' ∧ c ≠ '\x7b' := by
    rcases hc with rfl | hdigit
    · decide
    · refine ⟨isBlank_of_isDigit hdigit, ?_, ?_, ?_⟩ <;> rintro rfl <;> cases hdigit
  refine readBack_scalar hpretty hfirst fun behind hbehind => ?_
  have hnumber := number_toString found hbehind
  rw [htext] at hnumber
  exact (scalar_eq_number hc _).trans hnumber

theorem readBack_text (level : Nat) (found : String) :
    ReadBack level (.text found) := by
  intro fuel blanks behind hblanks hfuel _
  have hnone : ∀ c ∈ ([] : List Char), isBlank c = true := by
    simp
  have hquoted := quoted_quote hnone found behind
  rw [pretty] at hfuel ⊢
  rw [List.nil_append] at hquoted
  rw [toList_quote] at hfuel hquoted ⊢
  cases fuel with
  | zero => cases hfuel
  | succ fuel =>
      rw [List.cons_append, value_cons hblanks rfl, if_pos rfl, ← List.cons_append, hquoted]
      rfl

/-- A list is read back if its items are. -/
theorem readBack_list
    {level : Nat} {values : List Json}
    (hexact : ∀ found ∈ values, found.Exact)
    (hitems : ∀ found ∈ values, ReadBack (level + 1) found) :
    ReadBack level (.list values) := by
  intro fuel blanks behind hblanks hfuel _
  rw [toList_pretty_list] at hfuel ⊢
  obtain ⟨hroom, hcount⟩ := length_bracketed "[" "]" level (values.map (pretty (level + 1)))
  have hopening : "[".toList.length = 1 := rfl
  rw [List.length_map] at hcount
  obtain ⟨fuel, rfl⟩ : ∃ n, fuel = n + 1 := ⟨fuel - 1, by omega⟩
  have hitem (a : Json) (ha : a ∈ values) (blanks behind : List Char)
      (hblanks : ∀ c ∈ blanks, isBlank c = true) (hbehind : NoDigitAhead behind) :
      value fuel (blanks ++ ((pretty (level + 1) a).toList ++ behind)) = some (a, behind) := by
    have hline := hroom _ (List.mem_map_of_mem ha)
    exact hitems a ha hblanks (by omega) hbehind
  obtain ⟨chars, hbracketed, henclosed⟩ :=
    enclosed_bracketed (pretty (level + 1)) closes_list "[" level
      (by omega : values.length ≤ fuel)
      (fun a ha => exists_pretty_eq_cons (hexact a ha) (level + 1)) hitem
  have hclosing : String.singleton ']' = "]" := rfl
  have htext : "[".toList = ['['] := rfl
  rw [hclosing, htext, List.singleton_append] at hbracketed
  rw [hbracketed, List.cons_append, value_cons hblanks rfl, if_neg (by decide), if_pos rfl,
    henclosed]
  rfl

/-- A member is read back if its value is. -/
theorem member_memberText
    {level fuel : Nat} {named : String × Json} {blanks behind : List Char}
    (hvalue : ReadBack level named.2)
    (hfuel : (memberText level named).toList.length ≤ fuel)
    (hblanks : ∀ c ∈ blanks, isBlank c = true)
    (hbehind : NoDigitAhead behind) :
    member (value fuel) (blanks ++ ((memberText level named).toList ++ behind)) =
      some (named, behind) := by
  have hcolon : isBlank ':' = false := rfl
  rw [toList_memberText, List.length_append, List.length_cons, List.length_cons] at hfuel
  have hsize : (pretty level named.2).toList.length ≤ fuel := by
    omega
  have hread := hvalue isBlank_of_mem_space hsize hbehind
  rw [List.singleton_append] at hread
  have hname := quoted_quote hblanks named.1
    (':' :: ' ' :: ((pretty level named.2).toList ++ behind))
  rw [toList_memberText, List.append_assoc, List.cons_append, List.cons_append, member, hname]
  simp only [Option.bind_eq_bind, Option.bind_some, skipBlanks_cons hcolon, hread,
    Option.pure_def]

/-- An object is read back if its members are. -/
theorem readBack_object
    {level : Nat} {members : List (String × Json)}
    (hmembers : ∀ named ∈ members, ReadBack (level + 1) named.2) :
    ReadBack level (.object members) := by
  intro fuel blanks behind hblanks hfuel _
  rw [toList_pretty_object] at hfuel ⊢
  obtain ⟨hroom, hcount⟩ :=
    length_bracketed "\x7b" "\x7d" level (members.map (memberText (level + 1)))
  have hopening : "\x7b".toList.length = 1 := rfl
  rw [List.length_map] at hcount
  obtain ⟨fuel, rfl⟩ : ∃ n, fuel = n + 1 := ⟨fuel - 1, by omega⟩
  have hitem (a : String × Json) (ha : a ∈ members) (blanks behind : List Char)
      (hblanks : ∀ c ∈ blanks, isBlank c = true) (hbehind : NoDigitAhead behind) :
      member (value fuel) (blanks ++ ((memberText (level + 1) a).toList ++ behind)) =
        some (a, behind) := by
    have hline := hroom _ (List.mem_map_of_mem ha)
    exact member_memberText (hmembers a ha) (by omega) hblanks hbehind
  obtain ⟨chars, hbracketed, henclosed⟩ :=
    enclosed_bracketed (memberText (level + 1)) closes_object "\x7b" level
      (by omega : members.length ≤ fuel)
      (fun a _ => exists_memberText_eq_cons (level + 1) a) hitem
  have hclosing : String.singleton '\x7d' = "\x7d" := rfl
  have htext : "\x7b".toList = ['\x7b'] := rfl
  rw [hclosing, htext, List.singleton_append] at hbracketed
  rw [hbracketed, List.cons_append, value_cons hblanks rfl, if_neg (by decide),
    if_neg (by decide), if_pos rfl, henclosed]
  rfl

theorem readBack_of_exact
    {found : Json} (hexact : found.Exact) (level : Nat) :
    ReadBack level found := by
  induction hexact generalizing level with
  | null =>
      have htext : (pretty level .null).toList = ['n', 'u', 'l', 'l'] := by
        rw [pretty, toList_null]
      exact readBack_scalar htext (by decide) fun _ _ => rfl
  | boolean found => exact readBack_boolean level found
  | integer found => exact readBack_integer level found
  | text found => exact readBack_text level found
  | list hexact ih => exact readBack_list hexact fun found hmem => ih found hmem (level + 1)
  | object _ ih => exact readBack_object fun named hmem => ih named hmem (level + 1)

/-- The text of a value without floating numbers is read as this value, whatever blanks follow. -/
theorem read?_pretty
    {found : Json} (hexact : found.Exact) (level : Nat)
    {behind : String} (hbehind : ∀ c ∈ behind.toList, isBlank c = true) :
    read? (pretty level found ++ behind) = some found := by
  have hnone : ∀ c ∈ ([] : List Char), isBlank c = true := by
    simp
  have hend : NoDigitAhead behind.toList := by
    intro c hc
    exact isDigit_of_isBlank (hbehind c (List.mem_of_mem_head? hc))
  have hfuel :
      (pretty level found).toList.length ≤ (pretty level found ++ behind).toList.length := by
    rw [String.toList_append, List.length_append]
    omega
  have hvalue := readBack_of_exact hexact level hnone hfuel hend
  have hrest : skipBlanks behind.toList = [] :=
    List.dropWhile_eq_nil_iff.2 hbehind
  rw [List.nil_append, ← String.toList_append] at hvalue
  rw [read?, hvalue]
  simp only [Option.bind_eq_bind, Option.bind_some, hrest, List.isEmpty_nil, if_true]

end Values

end Json
end FirmwareVariables
