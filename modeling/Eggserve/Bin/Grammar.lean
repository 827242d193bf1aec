import Eggserve.Bin.Args
import Eggserve.Rust.Split

/-! What a command line says, apart from the ways of writing it. -/
namespace Eggserve.Bin
open Rust

inductive Item where
  | value (flag : ValueFlag) (text : Str)
  | switch (switch : Switch)
  | header (name value : Str)
  | positional (text : Str)
  deriving DecidableEq

/-- What one item does to the variables of the loop. -/
def Parse.take (usizeMax : Nat) (parse : Parse) : Item → Except Str Parse
  | .value flag text => do
      parse.admits flag
      parse.assign usizeMax flag text
  | .switch switch => parse.turnOn switch
  | .header name value =>
      .ok { parse with extraResponseHeaders := parse.extraResponseHeaders ++ [(name, value)] }
  | .positional text => .ok { parse with positionalArgs := parse.positionalArgs ++ [text] }

/-- The text is no flag; a single hyphen is none. -/
def IsValue (text : Str) : Prop := text.head? = some '-' → text = ['-']

def headerFlags : List Str := ["-H".toList, "--header".toList]

/-- The arguments of one item, without an attached value. -/
inductive Plain : Item → List Str → Prop
  | value (flag : ValueFlag) {text : Str} :
      IsValue text → Plain (.value flag text) [dashed flag.name, text]
  | switch (switch : Switch) : Plain (.switch switch) [dashed switch.name]
  | header {flag name value : Str} : flag ∈ headerFlags → IsValue name → IsValue value →
      Plain (.header name value) [flag, name, value]
  | positional {text : Str} : text.head? ≠ some '-' → Plain (.positional text) [text]

/-- The arguments of one item as a user may write them. -/
inductive Spells : Item → List Str → Prop
  | plain {item : Item} {words : List Str} : Plain item words → Spells item words
  | attached (flag : ValueFlag) {text : Str} :
      IsValue text → Spells (.value flag text) [dashed flag.name ++ '=' :: text]
  | headerAttached {name value : Str} : '=' ∉ name → IsValue name → IsValue value →
      Spells (.header name value) [dashed "header" ++ '=' :: (name ++ '=' :: value)]
  | nameAttached {name value : Str} : '=' ∉ name → IsValue name → IsValue value →
      Spells (.header name value) [dashed "header" ++ '=' :: name, value]

/-- The arguments spell the items in their order. Behind the end of the options every
argument is positional. -/
inductive Spelled : List Item → List Str → Prop
  | nil : Spelled [] []
  | rest (args : List Str) : Spelled (args.map Item.positional) (dashed [] :: args)
  | next {item : Item} {words args : List Str} {items : List Item} :
      Spells item words → Spelled items args → Spelled (item :: items) (words ++ args)

theorem requireValue_eq_ok {flag text value : Str} :
    requireValue flag (some text) = .ok value ↔ IsValue text ∧ text = value := by
  unfold IsValue
  simp only [requireValue]
  by_cases hFlag : text.head? = some '-' ∧ text ≠ ['-']
  · rw [if_pos hFlag]
    exact ⟨(fun h => by cases h), fun h => absurd (h.1 hFlag.1) hFlag.2⟩
  · rw [if_neg hFlag, Except.ok.injEq]
    exact ⟨fun h => ⟨fun hHead => not_not.mp fun hNe => hFlag ⟨hHead, hNe⟩, h⟩, fun h => h.2⟩

theorem requireValue_of_isValue {flag text : Str} (h : IsValue text) :
    requireValue flag (some text) = .ok text :=
  requireValue_eq_ok.mpr ⟨h, rfl⟩

theorem not_isValue_dashed {name : Str} : ¬IsValue (dashed name) := by
  intro h
  have hHyphen := h rfl
  cases hHyphen

/-! The names of the flags. -/

theorem mem_valueFlags (flag : ValueFlag) : flag ∈ ValueFlag.all := by
  cases flag with
  | limit flag => cases flag <;> decide
  | _ => decide

theorem mem_switches (switch : Switch) : switch ∈ Switch.all := by
  cases switch <;> decide

/-- The tables of flags, seen once: the names are told apart, and none has an equals sign. -/
theorem flag_table :
    (∀ flag ∈ ValueFlag.all, token (dashed flag.name) = .value flag ∧ '=' ∉ flag.name ∧
        flag.name ≠ "header") ∧
      (∀ switch ∈ Switch.all, token (dashed switch.name) = .switch switch) ∧
      ∀ arg ∈ headerFlags, token arg = .header ∧ arg ≠ dashed [] ∧ expandArg arg = .ok [arg] := by
  decide +kernel

theorem token_valueFlag (flag : ValueFlag) : token (dashed flag.name) = .value flag :=
  (flag_table.1 flag (mem_valueFlags flag)).1

theorem token_switch (switch : Switch) : token (dashed switch.name) = .switch switch :=
  flag_table.2.1 switch (mem_switches switch)

theorem token_header {arg : Str} (h : arg ∈ headerFlags) : token arg = .header :=
  (flag_table.2.2 arg h).1

theorem equals_not_mem_valueFlag (flag : ValueFlag) : '=' ∉ flag.name :=
  (flag_table.1 flag (mem_valueFlags flag)).2.1

theorem equals_not_mem_switch (switch : Switch) : '=' ∉ switch.name := by
  cases switch <;> decide

theorem token_positional {arg : Str} (h : arg.head? ≠ some '-') : token arg = .positional := by
  have hDashed (name : Str) : dashed name ≠ arg := by
    rintro rfl
    exact h rfl
  have hValue : ValueFlag.all.find? (fun flag => dashed flag.name = arg) = none :=
    List.find?_eq_none.mpr fun flag _ => by simpa using hDashed flag.name
  have hSwitch : Switch.all.find? (fun switch => dashed switch.name = arg) = none :=
    List.find?_eq_none.mpr fun switch _ => by simpa using hDashed switch.name
  have hLiteral {text : Str} (hHead : text.head? = some '-') : arg ≠ text := by
    rintro rfl
    exact h hHead
  rw [token, hValue]
  simp only [hSwitch]
  rw [if_neg (by rintro (hEq | hEq) <;> exact hLiteral (by rfl) hEq),
    if_neg (by rintro (hEq | hEq) <;> exact hLiteral (by rfl) hEq),
    if_neg (by rintro (hEq | hEq) <;> exact hLiteral (by rfl) hEq), if_neg h]

/-- What an argument was taken for tells what it is. -/
theorem token_cases (arg : Str) :
    (∃ flag, arg = dashed (ValueFlag.name flag) ∧ token arg = .value flag) ∨
      (∃ switch, arg = dashed (Switch.name switch) ∧ token arg = .switch switch) ∨
      (arg ∈ headerFlags ∧ token arg = .header) ∨
      (arg.head? ≠ some '-' ∧ token arg = .positional) ∨
      token arg ∈ [Token.help, .version, .unknown] := by
  by_cases hValue : ∃ flag, arg = dashed (ValueFlag.name flag)
  · obtain ⟨flag, rfl⟩ := hValue
    exact .inl ⟨flag, rfl, token_valueFlag flag⟩
  by_cases hSwitch : ∃ switch, arg = dashed (Switch.name switch)
  · obtain ⟨switch, rfl⟩ := hSwitch
    exact .inr (.inl ⟨switch, rfl, token_switch switch⟩)
  by_cases hHeader : arg ∈ headerFlags
  · exact .inr (.inr (.inl ⟨hHeader, token_header hHeader⟩))
  by_cases hHead : arg.head? = some '-'
  · refine .inr (.inr (.inr (.inr ?_)))
    have hNoValue : ValueFlag.all.find? (fun flag => dashed flag.name = arg) = none :=
      List.find?_eq_none.mpr fun flag _ => by
        simpa using fun h => hValue ⟨flag, h.symm⟩
    have hNoSwitch : Switch.all.find? (fun switch => dashed switch.name = arg) = none :=
      List.find?_eq_none.mpr fun switch _ => by
        simpa using fun h => hSwitch ⟨switch, h.symm⟩
    rw [token, hNoValue]
    simp only [hNoSwitch]
    rw [if_neg (by simpa [headerFlags] using hHeader)]
    split_ifs <;> simp
  · exact .inr (.inr (.inr (.inl ⟨hHead, token_positional hHead⟩)))

/-! Attached values are taken off. -/

theorem not_mem_of_splitOnce {c : Char} {s : Str} (h : splitOnce c s = none) : c ∉ s := by
  intro hMem
  obtain ⟨front, back, rfl, hFront⟩ := List.eq_append_cons_of_mem hMem
  rw [splitOnce_append back hFront] at h
  cases h

theorem expandArg_cases {arg : Str} {expanded : List Str} (h : expandArg arg = .ok expanded) :
    expanded = [arg] ∨
      (∃ flag text, arg = dashed (ValueFlag.name flag) ++ '=' :: text ∧
        expanded = [dashed flag.name, text]) ∨
      (∃ name value, '=' ∉ name ∧ arg = dashed "header" ++ '=' :: (name ++ '=' :: value) ∧
        expanded = [dashed "header", name, value]) ∨
      ∃ name, '=' ∉ name ∧ arg = dashed "header" ++ '=' :: name ∧
        expanded = [dashed "header", name] := by
  unfold expandArg at h
  split at h
  · rename_i long
    split at h
    · exact .inl (Except.ok.inj h).symm
    · rename_i name value hSplit
      obtain ⟨rfl, hName⟩ := splitOnce_eq_some.mp hSplit
      split_ifs at h with hHeader hValue hBoolean
      · rw [hHeader]
        split at h
        · rename_i headerName headerValue hInner
          obtain ⟨rfl, hFree⟩ := splitOnce_eq_some.mp hInner
          exact .inr (.inr (.inl ⟨_, _, hFree, rfl, (Except.ok.inj h).symm⟩))
        · rename_i hInner
          exact .inr (.inr (.inr ⟨_, not_mem_of_splitOnce hInner, rfl, (Except.ok.inj h).symm⟩))
      · obtain ⟨flag, -, hFlag⟩ := List.any_eq_true.mp hValue
        have hName : flag.name = name := of_decide_eq_true hFlag
        rw [← hName] at h ⊢
        exact .inr (.inl ⟨flag, _, rfl, (Except.ok.inj h).symm⟩)
      · exact .inl (Except.ok.inj h).symm
  · exact .inl (Except.ok.inj h).symm

theorem expandArg_dashed {name : Str} (h : '=' ∉ name) :
    expandArg (dashed name) = .ok [dashed name] := by
  simp only [expandArg, dashed, splitOnce_of_not_mem h]

theorem expandArg_isValue {text : Str} (h : IsValue text) : expandArg text = .ok [text] := by
  unfold expandArg
  split
  · exact absurd h not_isValue_dashed
  · rfl

theorem expandArg_attached (flag : ValueFlag) (text : Str) :
    expandArg (dashed flag.name ++ '=' :: text) = .ok [dashed flag.name, text] := by
  have hSplit := splitOnce_append text (equals_not_mem_valueFlag flag)
  have hHeader : flag.name ≠ "header" := (flag_table.1 flag (mem_valueFlags flag)).2.2
  have hKnown : isValueFlag flag.name = true :=
    List.any_eq_true.mpr ⟨flag, mem_valueFlags flag, decide_eq_true rfl⟩
  simp only [expandArg, dashed, List.cons_append, hSplit]
  rw [if_neg hHeader, if_pos hKnown]

theorem expandArg_header (text : Str) :
    expandArg (dashed "header" ++ '=' :: text) =
      match splitOnce '=' text with
      | some (name, value) => .ok [dashed "header", name, value]
      | none => .ok [dashed "header", text] := by
  have hSplit : splitOnce '=' ("header".toList ++ '=' :: text) = some ("header".toList, text) :=
    splitOnce_append text (by decide)
  simp only [expandArg, dashed, List.cons_append, hSplit]
  rfl

theorem expand_cons {arg : Str} {expanded : List Str} (hEnd : arg ≠ dashed [])
    (hArg : expandArg arg = .ok expanded) (rest : List Str) :
    expandAttachedLongValues (arg :: rest) =
      (expandAttachedLongValues rest).map (expanded ++ ·) := by
  rw [expandAttachedLongValues, if_neg hEnd, hArg]
  cases expandAttachedLongValues rest <;> rfl

theorem expand_words {words : List Str}
    (h : ∀ word ∈ words, word ≠ dashed [] ∧ expandArg word = .ok [word]) (rest : List Str) :
    expandAttachedLongValues (words ++ rest) =
      (expandAttachedLongValues rest).map (words ++ ·) := by
  induction words with
  | nil => cases hRest : expandAttachedLongValues rest <;> simp [hRest, Except.map]
  | cons word words ih =>
      obtain ⟨hEnd, hWord⟩ := h word (List.mem_cons_self ..)
      rw [List.cons_append, expand_cons hEnd hWord,
        ih fun other hOther => h other (List.mem_cons_of_mem _ hOther)]
      cases expandAttachedLongValues rest <;> rfl

theorem isValue_ne_end {text : Str} (h : IsValue text) : text ≠ dashed [] := by
  rintro rfl
  exact not_isValue_dashed h

theorem isValue_of_head {text : Str} (h : text.head? ≠ some '-') : IsValue text :=
  fun hHead => absurd hHead h

theorem dashed_ne_end {name : Str} (h : name ≠ []) : dashed name ≠ dashed [] :=
  fun hEq => h (List.cons.inj (List.cons.inj hEq).2).2

/-- A plain word goes on as it is. -/
theorem plain_kept {item : Item} {words : List Str} (h : Plain item words) :
    ∀ word ∈ words, word ≠ dashed [] ∧ expandArg word = .ok [word] := by
  have hText {text : Str} (hValue : IsValue text) :
      text ≠ dashed [] ∧ expandArg text = .ok [text] :=
    ⟨isValue_ne_end hValue, expandArg_isValue hValue⟩
  cases h with
  | value flag hValue =>
      have hName : flag.name ≠ [] := by
        cases flag with
        | limit flag => cases flag <;> decide
        | _ => decide
      have hFlag := expandArg_dashed (equals_not_mem_valueFlag flag)
      simpa using ⟨⟨dashed_ne_end hName, hFlag⟩, hText hValue⟩
  | switch switch =>
      have hName : switch.name ≠ [] := by cases switch <;> decide
      simpa using ⟨dashed_ne_end hName, expandArg_dashed (equals_not_mem_switch switch)⟩
  | header hFlag hName hValue =>
      simpa using ⟨(flag_table.2.2 _ hFlag).2, hText hName, hText hValue⟩
  | positional hHead => simpa using hText (isValue_of_head hHead)

theorem expand_spells {item : Item} {words : List Str} (h : Spells item words) :
    ∃ plain, Plain item plain ∧ ∀ rest, expandAttachedLongValues (words ++ rest) =
      (expandAttachedLongValues rest).map (plain ++ ·) := by
  have hHeader : dashed "header" ∈ headerFlags := by decide
  cases h with
  | plain hPlain => exact ⟨words, hPlain, expand_words (plain_kept hPlain)⟩
  | attached flag hValue =>
      exact ⟨_, .value flag hValue, expand_cons (by simp [dashed]) (expandArg_attached flag _)⟩
  | headerAttached hFree hName hValue =>
      refine ⟨_, .header hHeader hName hValue, expand_cons (by simp [dashed]) ?_⟩
      rw [expandArg_header, splitOnce_append _ hFree]
  | @nameAttached name value hFree hName hValue =>
      refine ⟨_, .header hHeader hName hValue, fun rest => ?_⟩
      have hArg : expandArg (dashed "header" ++ '=' :: name) = .ok [dashed "header", name] := by
        rw [expandArg_header, splitOnce_of_not_mem hFree]
      rw [List.cons_append, List.cons_append, List.nil_append,
        expand_cons (by simp [dashed]) hArg,
        expand_cons (isValue_ne_end hValue) (expandArg_isValue hValue)]
      cases expandAttachedLongValues rest <;> rfl

/-! The loop, one item after another. -/

section

variable {usizeMax : Nat} {parse after : Parse}

theorem loop_plain {item : Item} {words : List Str} (h : Plain item words) (rest : List Str) :
    parseLoop usizeMax (words ++ rest) parse =
      parse.take usizeMax item >>= parseLoop usizeMax rest := by
  have hKept := plain_kept h
  cases h with
  | value flag hValue =>
      rw [List.cons_append, parseLoop.eq_def]
      simp only [if_neg (hKept _ (List.mem_cons_self ..)).1, token_valueFlag, List.cons_append,
        requireValue_of_isValue hValue, Parse.take, bind_assoc]
      rfl
  | switch switch =>
      rw [List.cons_append, parseLoop.eq_def]
      simp only [if_neg (hKept _ (List.mem_cons_self ..)).1, token_switch]
      rfl
  | header hFlag hName hValue =>
      rw [List.cons_append, parseLoop.eq_def]
      simp only [if_neg (hKept _ (List.mem_cons_self ..)).1, token_header hFlag, List.cons_append,
        requireValue_of_isValue hName, requireValue_of_isValue hValue]
      rfl
  | positional hHead =>
      rw [List.cons_append, parseLoop.eq_def]
      simp only [if_neg (hKept _ (List.mem_cons_self ..)).1, token_positional hHead]
      rfl

/-- An option that takes a value meets one. -/
theorem loop_value {flag : ValueFlag} {tail : List Str}
    (h : parseLoop usizeMax (dashed flag.name :: tail) parse = .ok after) :
    ∃ text others, tail = text :: others ∧ IsValue text := by
  have hEmpty : IsValue [] := by
    intro h
    cases h
  have hEnd := (plain_kept (.value flag hEmpty) _ (List.mem_cons_self ..)).1
  rw [parseLoop.eq_def] at h
  simp only [if_neg hEnd, token_valueFlag] at h
  obtain ⟨-, hRest⟩ := check_bind_eq_ok.mp h
  cases tail with
  | nil => cases hRest
  | cons text others =>
      obtain ⟨value, hValue, -⟩ := bind_eq_ok.mp hRest
      exact ⟨text, others, rfl, (requireValue_eq_ok.mp hValue).1⟩

theorem loop_header {flag : Str} {tail : List Str} (hFlag : flag ∈ headerFlags)
    (h : parseLoop usizeMax (flag :: tail) parse = .ok after) :
    ∃ name value others, tail = name :: value :: others ∧ IsValue name ∧ IsValue value := by
  have hAll : ∀ flag ∈ headerFlags, flag ≠ dashed [] := by decide
  rw [parseLoop.eq_def] at h
  simp only [if_neg (hAll flag hFlag), token_header hFlag] at h
  cases tail with
  | nil => cases h
  | cons name rest =>
      cases rest with
      | nil =>
          obtain ⟨_, -, hRest⟩ := bind_eq_ok.mp h
          cases hRest
      | cons value others =>
          obtain ⟨_, hName, hRest⟩ := bind_eq_ok.mp h
          obtain ⟨_, hValue, -⟩ := bind_eq_ok.mp hRest
          exact ⟨name, value, others, rfl, (requireValue_eq_ok.mp hName).1,
            (requireValue_eq_ok.mp hValue).1⟩

/-- A value in front of the loop was an argument of its own. -/
theorem next_value {args others : List Str} {text : Str}
    (h : expandAttachedLongValues args = .ok (text :: others)) (hValue : IsValue text) :
    ∃ rest, args = text :: rest ∧ expandAttachedLongValues rest = .ok others := by
  cases args with
  | nil => cases h
  | cons arg rest =>
      by_cases hEnd : arg = dashed []
      · rw [expandAttachedLongValues, if_pos hEnd] at h
        cases h
        exact absurd hEnd (isValue_ne_end hValue)
      · rw [expandAttachedLongValues, if_neg hEnd] at h
        obtain ⟨expanded, hArg, hRest⟩ := bind_eq_ok.mp h
        obtain ⟨tail, hTail, hJoin⟩ := bind_eq_ok.mp hRest
        have hJoined : expanded ++ tail = text :: others := Except.ok.inj hJoin
        have hFlag {name : Str} {back : List Str} (hHead : expanded = dashed name :: back) :
            False := by
          rw [hHead, List.cons_append] at hJoined
          obtain ⟨rfl, -⟩ := List.cons.inj hJoined
          exact not_isValue_dashed hValue
        rcases expandArg_cases hArg with rfl | ⟨_, _, -, hHead⟩ | ⟨_, _, -, -, hHead⟩ |
          ⟨_, -, -, hHead⟩
        · obtain ⟨rfl, rfl⟩ := List.cons.inj hJoined
          exact ⟨rest, rfl, hTail⟩
        · exact (hFlag hHead).elim
        · exact (hFlag hHead).elim
        · exact (hFlag hHead).elim

/-- The arguments, taken apart and put through the loop. -/
def parseLine (usizeMax : Nat) (args : List Str) (parse : Parse) : Except Str Parse := do
  let args ← expandAttachedLongValues args
  parseLoop usizeMax args parse

theorem parseLine_spells {item : Item} {words : List Str} (h : Spells item words)
    (rest : List Str) :
    parseLine usizeMax (words ++ rest) parse = .ok after ↔
      ∃ next, parse.take usizeMax item = .ok next ∧ parseLine usizeMax rest next = .ok after := by
  obtain ⟨plain, hPlain, hExpand⟩ := expand_spells h
  rw [parseLine, hExpand]
  unfold parseLine
  cases expandAttachedLongValues rest with
  | error e =>
      refine ⟨(fun hError => by cases hError), ?_⟩
      rintro ⟨next, -, hError⟩
      cases hError
  | ok tail =>
      show parseLoop usizeMax (plain ++ tail) parse = .ok after ↔ _
      rw [loop_plain hPlain, bind_eq_ok]
      rfl

/-- An accepted line begins with the arguments of one item. -/
theorem spells_of_parseLine {arg : Str} {args : List Str} (hEnd : arg ≠ dashed [])
    (h : parseLine usizeMax (arg :: args) parse = .ok after) :
    ∃ item words rest, Spells item words ∧ arg :: args = words ++ rest ∧
      rest.length < (arg :: args).length := by
  obtain ⟨line, hLine, hLoop⟩ := bind_eq_ok.mp h
  rw [expandAttachedLongValues, if_neg hEnd] at hLine
  obtain ⟨expanded, hArg, hRest⟩ := bind_eq_ok.mp hLine
  obtain ⟨tail, hTail, hJoin⟩ := bind_eq_ok.mp hRest
  obtain rfl : expanded ++ tail = line := Except.ok.inj hJoin
  rcases expandArg_cases hArg with rfl | ⟨flag, text, rfl, rfl⟩ | ⟨name, value, hFree, rfl, rfl⟩ |
    ⟨name, hFree, rfl, rfl⟩
  · rcases token_cases arg with ⟨flag, rfl, -⟩ | ⟨switch, rfl, -⟩ | ⟨hHeader, -⟩ |
      ⟨hHead, -⟩ | hNone
    · obtain ⟨text, others, rfl, hValue⟩ := loop_value hLoop
      obtain ⟨rest, rfl, -⟩ := next_value hTail hValue
      exact ⟨_, [_, _], rest, .plain (.value flag hValue), rfl,
        by simp only [List.length_cons]; omega⟩
    · exact ⟨_, [_], args, .plain (.switch switch), rfl, by simp⟩
    · obtain ⟨name, value, others, rfl, hName, hValue⟩ := loop_header hHeader hLoop
      obtain ⟨second, rfl, hSecond⟩ := next_value hTail hName
      obtain ⟨rest, rfl, -⟩ := next_value hSecond hValue
      exact ⟨_, [_, _, _], rest, .plain (.header hHeader hName hValue), rfl,
        by simp only [List.length_cons]; omega⟩
    · exact ⟨_, [_], args, .plain (.positional hHead), rfl, by simp⟩
    · rw [List.singleton_append, parseLoop.eq_def] at hLoop
      simp only [if_neg hEnd] at hLoop
      simp only [List.mem_cons, List.not_mem_nil, or_false] at hNone
      rcases hNone with hToken | hToken | hToken <;>
      · rw [hToken] at hLoop
        cases hLoop
  · obtain ⟨_, _, hText, hValue⟩ := loop_value hLoop
    rw [← (List.cons.inj hText).1] at hValue
    exact ⟨_, [_], args, .attached flag hValue, rfl, by simp⟩
  · obtain ⟨_, _, _, hText, hName, hValue⟩ := loop_header (by decide) hLoop
    rw [← (List.cons.inj hText).1] at hName
    rw [← (List.cons.inj (List.cons.inj hText).2).1] at hValue
    exact ⟨_, [_], args, .headerAttached hFree hName hValue, rfl, by simp⟩
  · obtain ⟨_, value, others, hText, hName, hValue⟩ := loop_header (by decide) hLoop
    obtain ⟨hFirst, rfl⟩ := List.cons.inj hText
    rw [← hFirst] at hName
    obtain ⟨rest, rfl, -⟩ := next_value hTail hValue
    exact ⟨_, [_, _], rest, .nameAttached hFree hName hValue, rfl,
      by simp only [List.length_cons]; omega⟩

theorem take_positionals (args : List Str) :
    (args.map Item.positional).foldlM (Parse.take usizeMax) parse =
      .ok { parse with positionalArgs := parse.positionalArgs ++ args } := by
  induction args generalizing parse with
  | nil => simp [pure, Except.pure]
  | cons arg args ih =>
      rw [List.map_cons, List.foldlM_cons]
      show (args.map Item.positional).foldlM (Parse.take usizeMax) _ = _
      rw [ih, List.append_assoc]
      rfl

theorem parseLine_spelled {items : List Item} {args : List Str} (h : Spelled items args) :
    parseLine usizeMax args parse = .ok after ↔
      items.foldlM (Parse.take usizeMax) parse = .ok after := by
  induction h generalizing parse with
  | nil => exact Iff.rfl
  | rest args =>
      rw [take_positionals]
      exact Iff.rfl
  | next hSpells hRest ih =>
      rw [parseLine_spells hSpells, List.foldlM_cons, bind_eq_ok]
      exact exists_congr fun next => and_congr_right fun _ => ih

/-- An accepted line is spelled by some items. -/
theorem exists_spelled {args : List Str} (h : parseLine usizeMax args parse = .ok after) :
    ∃ items, Spelled items args := by
  induction hLength : args.length using Nat.strong_induction_on generalizing args parse with
  | _ length ih =>
      subst hLength
      cases args with
      | nil => exact ⟨[], .nil⟩
      | cons arg args =>
          by_cases hEnd : arg = dashed []
          · subst hEnd
            exact ⟨args.map Item.positional, .rest args⟩
          · obtain ⟨item, words, rest, hSpells, hSplit, hShorter⟩ := spells_of_parseLine hEnd h
            rw [hSplit] at h
            obtain ⟨next, -, hNext⟩ := (parseLine_spells hSpells rest).mp h
            obtain ⟨items, hSpelled⟩ := ih _ hShorter hNext rfl
            rw [hSplit]
            exact ⟨item :: items, .next hSpells hSpelled⟩

end

end Eggserve.Bin
