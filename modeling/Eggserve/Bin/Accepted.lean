import Eggserve.Bin.Options

/-! What every accepted command line says. -/
namespace Eggserve.Bin
open Rust Eggserve.Primitives Eggserve.Transition

section

variable {usizeMax : Nat} {items : List Item} {args : List Str}

theorem switch_mem_needs {item : Item} {flag : Switch} :
    .switch flag ∈ item.needs ↔ item = .switch flag := by
  cases item with
  | value other text =>
      refine iff_of_false switch_not_mem_needs ?_
      rintro ⟨⟩
  | switch other => simp [Item.needs, eq_comm]
  | header name value => simp [Item.needs]
  | positional text => simp [Item.needs]

/-- A switch is on behind the loop exactly when it was given. -/
theorem collect_on (hRead : ∀ item ∈ items, item.Readable usizeMax) (flag : Switch) :
    (collect usizeMax items).on flag = true ↔ .switch flag ∈ items := by
  have hTaken := taking.taken_foldl hRead {} (.switch flag)
  rw [List.mem_flatMap] at hTaken
  simp only [switch_mem_needs, exists_eq_right] at hTaken
  refine hTaken.trans (or_iff_right ?_)
  intro hOn
  cases hOn

theorem spells_ne_end {item : Item} {words : List Str} (h : Spells item words) :
    dashed [] ∉ words := by
  intro hEnd
  have hAttached {name text : Str} : dashed [] ≠ dashed name ++ '=' :: text := by
    intro hEq
    have hLength := congrArg List.length hEq
    simp [dashed] at hLength
  cases h with
  | plain hPlain => exact (plain_kept hPlain _ hEnd).1 rfl
  | attached flag hValue => exact hAttached (List.mem_singleton.mp hEnd)
  | headerAttached hFree hName hValue => exact hAttached (List.mem_singleton.mp hEnd)
  | nameAttached hFree hName hValue =>
      rcases List.mem_cons.mp hEnd with hFirst | hSecond
      · exact hAttached hFirst
      · exact isValue_ne_end hValue (List.mem_singleton.mp hSecond).symm

/-- A switch stands in the line, in front of the end of the options. -/
theorem spelled_switch (h : Spelled items args) {flag : Switch} (hMem : .switch flag ∈ items) :
    ∃ front back, args = front ++ dashed flag.name :: back ∧ dashed [] ∉ front := by
  induction h with
  | nil => cases hMem
  | rest args =>
      obtain ⟨arg, -, hArg⟩ := List.mem_map.mp hMem
      cases hArg
  | @next item words args items hSpells hRest ih =>
      rcases List.mem_cons.mp hMem with hItem | hMem
      · subst hItem
        cases hSpells with
        | plain hPlain =>
            cases hPlain
            exact ⟨[], args, rfl, List.not_mem_nil⟩
      · obtain ⟨front, back, rfl, hFront⟩ := ih hMem
        refine ⟨words ++ front, back, (List.append_assoc ..).symm, ?_⟩
        rw [List.mem_append, not_or]
        exact ⟨spells_ne_end hSpells, hFront⟩

/-- What every item keeps holds behind the loop. -/
theorem collect_invariant {P : Parse → Prop} (hFirst : P {})
    (hStep : ∀ item parse, P parse → P (parse.write usizeMax item)) (items : List Item) :
    P (collect usizeMax items) := by
  have hRun (items : List Item) (parse : Parse) (h : P parse) :
      P (items.foldl (fun parse item => parse.write usizeMax item) parse) := by
    induction items generalizing parse with
    | nil => exact h
    | cons item items ih => exact ih _ (hStep item parse h)
  exact hRun items {} hFirst

/-- The limits behind the loop were read from the line. -/
theorem collect_limits (items : List Item) (flag : LimitFlag) (limit : Nat)
    (h : (collect usizeMax items).limits flag = some limit) :
    ∃ text, readLimit usizeMax flag text = .ok limit := by
  revert limit
  apply collect_invariant (P := fun parse => ∀ limit, parse.limits flag = some limit →
    ∃ text, readLimit usizeMax flag text = .ok limit)
  · intro limit hNone
    cases hNone
  intro item parse hParse
  cases item with
  | value other text =>
      cases other with
      | limit other =>
          intro limit hLimit
          by_cases hSame : flag = other
          · subst hSame
            simp only [Parse.write, Parse.store, if_true] at hLimit
            refine ⟨text, ?_⟩
            cases hText : readLimit usizeMax flag text with
            | error e =>
                rw [hText] at hLimit
                cases hLimit
            | ok read =>
                rw [hText] at hLimit
                cases hLimit
                rfl
          · simp only [Parse.write, Parse.store, if_neg hSame] at hLimit
            exact hParse limit hLimit
      | _ => exact hParse
  | _ => exact hParse

/-- A limit of zero requests is read as none. -/
theorem collect_requests (items : List Item) :
    (collect usizeMax items).maxRequestsPerConnection ≠ some (some 0) := by
  apply collect_invariant (P := fun parse => parse.maxRequestsPerConnection ≠ some (some 0))
  · intro hNone
    cases hNone
  intro item parse hParse
  cases item with
  | value other text =>
      cases other with
      | maxRequestsPerConnection =>
          simp only [Parse.write, Parse.store]
          cases hText : readMaxRequests text with
          | error e =>
              intro h
              cases h
          | ok read =>
              intro h
              obtain ⟨parsed, -, hRead⟩ := bind_eq_ok.mp hText
              cases Option.some.inj h
              by_cases hZero : parsed = 0
              · rw [if_pos hZero] at hRead
                cases hRead
              · rw [if_neg hZero] at hRead
                cases hRead
                exact hZero rfl
      | _ => exact hParse
  | _ => exact hParse

theorem readLimit_pos {flag : LimitFlag} {text : Str} {limit : Nat}
    (h : readLimit usizeMax flag text = .ok limit) (hPositive : flag.positive = true) :
    0 < limit := by
  obtain ⟨parsed, -, h⟩ := bind_eq_ok.mp h
  obtain ⟨hZero, h⟩ := check_bind_eq_ok.mp h
  cases h
  rw [failIf_eq_ok] at hZero
  exact Nat.pos_of_ne_zero fun hEq => hZero ⟨hPositive, hEq⟩

/-- What the end of the parser checked, and what it takes over. -/
theorem finish_eq_ok {env : Environment} {parse : Parse} {parsed : Args}
    (h : finish env parse = .ok parsed) :
    (parsed.bind.ip.isUnspecified = true → parse.on .publicExposure = true) ∧
      Core.validateStaticMetadata parsed.defaultContentType parsed.extraResponseHeaders = .ok () ∧
      parsed.tlsKey.isSome = parsed.tlsCert.isSome ∧ parsed.limits = parse.limits ∧
      parsed.maxRequestsPerConnection = parse.maxRequestsPerConnection := by
  obtain ⟨slots, -, h⟩ := bind_eq_ok.mp h
  obtain ⟨bindIp, -, h⟩ := bind_eq_ok.mp h
  obtain ⟨hPublic, h⟩ := check_bind_eq_ok.mp h
  obtain ⟨hMetadata, h⟩ := check_bind_eq_ok.mp h
  obtain ⟨hTls, h⟩ := check_bind_eq_ok.mp h
  cases h
  refine ⟨fun hAll => ?_, hMetadata, ?_, rfl, rfl⟩
  · by_contra hOff
    exact failIf_eq_ok.mp hPublic ⟨eq_false_of_ne_true hOff, hAll⟩
  · cases hCert : parse.tlsCert with
    | none =>
        cases hKey : parse.tlsKey with
        | none => rfl
        | some key => exact absurd ⟨by rw [hCert]; rfl, by rw [hKey]; rfl⟩ (failIf_eq_ok.mp hTls)
    | some cert => cases parse.tlsKey <;> rfl

/-- An accepted line binds every address only with `--public`, its headers are ones that
every response can carry, a key comes with a certificate, and no count is zero. -/
theorem accepted_args_are_safe (env : Environment) (args : List Str) (parsed : Args)
    (h : parseFrom env args = .ok parsed) :
    (parsed.bind.ip.isUnspecified = true →
        ∃ front back, args = front ++ dashed "public" :: back ∧ dashed [] ∉ front) ∧
      (∀ header ∈ parsed.extraResponseHeaders, Static.ValidExtra ⟨header.1, header.2⟩) ∧
      parsed.tlsKey.isSome = parsed.tlsCert.isSome ∧
      ∀ flag limit, parsed.limits flag = some limit → flag.positive = true → 0 < limit := by
  obtain ⟨items, hSpelled, hRead, -, hFinish⟩ := exists_items h
  obtain ⟨hPublic, hMetadata, hTls, hLimits, -⟩ := finish_eq_ok hFinish
  refine ⟨fun hAll => ?_, fun header hHeader => Core.validExtra_of_mem hMetadata hHeader, hTls,
    fun flag limit hLimit => ?_⟩
  · exact spelled_switch hSpelled ((collect_on hRead .publicExposure).mp (hPublic hAll))
  · rw [hLimits] at hLimit
    obtain ⟨text, hText⟩ := collect_limits items flag limit hLimit
    exact readLimit_pos hText

/-- A line that serves every address over TLS, with a header and a limit. -/
theorem accepted_args_are_safe_public :
    ∃ parsed, parseFrom offline ["--bind", "0.0.0.0:80", "--public", "-H", "X-Frame-Options",
        "DENY", "--max-connections=9", "--tls-cert", "cert.pem"] = .ok parsed ∧
      parsed.bind.ip.isUnspecified = true ∧
      parsed.tlsKey.isSome = parsed.tlsCert.isSome := by
  have hSome : ((parseFrom offline ["--bind", "0.0.0.0:80", "--public", "-H", "X-Frame-Options",
      "DENY", "--max-connections=9", "--tls-cert", "cert.pem"]).toOption.any
        fun parsed => parsed.bind.ip.isUnspecified) = true := by
    decide +kernel
  cases hParsed : parseFrom offline ["--bind", "0.0.0.0:80", "--public", "-H", "X-Frame-Options",
      "DENY", "--max-connections=9", "--tls-cert", "cert.pem"] with
  | error e =>
      rw [hParsed] at hSome
      cases hSome
  | ok parsed =>
      rw [hParsed] at hSome
      exact ⟨parsed, rfl, hSome, (accepted_args_are_safe _ _ _ hParsed).2.2.1⟩

theorem accepted_requests {env : Environment} {parsed : Args}
    (h : parseFrom env args = .ok parsed) : parsed.maxRequestsPerConnection ≠ some (some 0) := by
  obtain ⟨items, -, -, -, hFinish⟩ := exists_items h
  obtain ⟨-, -, -, -, hRequests⟩ := finish_eq_ok hFinish
  rw [hRequests]
  exact collect_requests items

end

end Eggserve.Bin
