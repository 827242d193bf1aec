import Eggserve.Bin.Grammar
import Eggserve.Transition.Resources

/-! Every option claims a part of the configuration, and no part is claimed twice. So the
order of the options does not count. -/
namespace Eggserve.Bin
open Rust Eggserve.Transition

/-- What only one option of a line can set. -/
inductive Resource where
  | host
  | port
  | value (flag : ValueFlag)
  | switch (switch : Switch)
  deriving DecidableEq

/-- The host and the port that the value of `--bind` sets. -/
def boundHost (text : Str) : Option Str := (readBind text).toOption.map Prod.fst

def boundPort (text : Str) : Option Nat := (readBind text).toOption.bind Prod.snd

/-- The options for the host and the port get in the way of each other. -/
def ValueFlag.setsAddress : ValueFlag → Bool
  | bind | port | addr => true
  | _ => false

def Item.needs : Item → List Resource
  | .value .bind text => if (boundPort text).isSome then [.host, .port] else [.host]
  | .value .port _ => [.port]
  | .value .addr _ => [.host, .port]
  | .value flag _ => [.value flag]
  | .switch flag => [.switch flag]
  | .header _ _ => []
  | .positional _ => []

/-- The value of the option can be read. -/
def Item.Readable (usizeMax : Nat) : Item → Prop
  | .value .bind text => (readBind text).isOk = true
  | .value .port text => (readPortValue text).isOk = true
  | .value .addr text => (readAddr text).isOk = true
  | .value .logFormat text => (readLogFormat text).isOk = true
  | .value (.limit flag) text => (readLimit usizeMax flag text).isOk = true
  | .value .maxRequestsPerConnection text => (readMaxRequests text).isOk = true
  | _ => True

namespace Parse

/-- Somebody has set it. The port of `--addr` counts as set by it, too. -/
def Taken (parse : Parse) : Resource → Prop
  | .host => parse.seen .bind = true ∨ parse.seen .addr = true
  | .port => parse.portFromFlag = true ∨ parse.seen .addr = true
  | .value flag => flag.setsAddress = false ∧ parse.seen flag = true
  | .switch switch => parse.on switch = true

/-- The value of an option is stored. -/
def store (usizeMax : Nat) (flag : ValueFlag) (text : Str) (parse : Parse) : Parse :=
  match flag with
  | .directory => { parse with root := some text }
  | .bind =>
      { parse with
        bindHost := (boundHost text).getD parse.bindHost
        bindPort := (boundPort text).getD parse.bindPort
        portFromFlag := parse.portFromFlag || (boundPort text).isSome }
  | .port => parse.setPort ((readPortValue text).toOption.getD parse.bindPort)
  | .addr =>
      { parse with
        bindHost := ((readAddr text).toOption.map fun addr : SocketAddr => addr.ip.display).getD
          parse.bindHost
      }.setPort (((readAddr text).toOption.map SocketAddr.port).getD parse.bindPort)
  | .logFormat =>
      { parse with logFormat := (readLogFormat text).toOption.getD parse.logFormat }
  | .limit flag =>
      { parse with
        limits := fun other =>
          if other = flag then (readLimit usizeMax flag text).toOption else parse.limits other }
  | .maxRequestsPerConnection =>
      { parse with maxRequestsPerConnection := (readMaxRequests text).toOption }
  | .contentType => { parse with defaultContentType := text }
  | .tlsCert => { parse with tlsCert := some text }
  | .tlsKey => { parse with tlsKey := some text }

def flip (parse : Parse) (switch : Switch) : Parse :=
  { parse with on := fun other => if other = switch then true else parse.on other }

/-- What an item leaves behind when it is taken. -/
def write (usizeMax : Nat) (item : Item) (parse : Parse) : Parse :=
  match item with
  | .value flag text => (parse.mark flag).store usizeMax flag text
  | .switch switch => parse.flip switch
  | .header name value =>
      { parse with extraResponseHeaders := parse.extraResponseHeaders ++ [(name, value)] }
  | .positional text => { parse with positionalArgs := parse.positionalArgs ++ [text] }

end Parse

/-- The variables behind the loop when every item was taken. -/
def collect (usizeMax : Nat) (items : List Item) : Parse :=
  items.foldl (fun parse item => parse.write usizeMax item) {}

section

variable {usizeMax : Nat}

variable {parse after : Parse}

theorem admits_bind : parse.admits .bind = .ok () ↔
    parse.seen .bind = false ∧ parse.seen .addr = false := by
  rw [Parse.admits, check_bind_eq_ok, failIf_eq_ok, failIf_eq_ok, Bool.not_eq_true,
    Bool.not_eq_true]

theorem admits_port : parse.admits .port = .ok () ↔
    parse.seen .addr = false ∧ parse.portFromFlag = false := by
  rw [Parse.admits, check_bind_eq_ok, failIf_eq_ok, failIf_eq_ok, Bool.not_eq_true,
    Bool.not_eq_true]

theorem admits_addr : parse.admits .addr = .ok () ↔
    parse.seen .bind = false ∧ parse.seen .addr = false ∧ parse.portFromFlag = false := by
  rw [Parse.admits, check_bind_eq_ok, check_bind_eq_ok, failIf_eq_ok, failIf_eq_ok, failIf_eq_ok,
    Bool.not_eq_true, Bool.not_eq_true, Bool.not_eq_true]

/-- The port of `--bind` must be the first one. -/
theorem assign_bind {text : Str} : parse.assign usizeMax .bind text = .ok after ↔
    (readBind text).isOk = true ∧ ((boundPort text).isSome = true → parse.portFromFlag = false) ∧
      (parse.mark .bind).store usizeMax .bind text = after := by
  cases hRead : readBind text with
  | error e => simp [Parse.assign, hRead, Except.isOk, Except.toBool, bind, Except.bind]
  | ok read =>
      obtain ⟨host, port⟩ := read
      have hHost : boundHost text = some host := by rw [boundHost, hRead]; rfl
      have hPort : boundPort text = port := by rw [boundPort, hRead]; rfl
      simp only [Parse.assign, hRead, Parse.store, hHost, hPort]
      show (failIf (port.isSome = true ∧ parse.portFromFlag = true) portOnce >>= fun _ => _) = _ ↔ _
      rw [check_bind_eq_ok, failIf_eq_ok, not_and, Bool.not_eq_true]
      cases port with
      | none =>
          simp [Except.isOk, Except.toBool, pure, Except.pure]
      | some port =>
          simp [Except.isOk, Except.toBool, pure, Except.pure, Parse.setPort]

theorem assign_addr {text : Str} : parse.assign usizeMax .addr text = .ok after ↔
    (readAddr text).isOk = true ∧ (parse.mark .addr).store usizeMax .addr text = after := by
  cases hRead : readAddr text <;>
    simp [Parse.assign, Parse.store, hRead, Except.isOk, Except.toBool, bind, Except.bind, pure,
      Except.pure, Except.toOption]

/-- An item is taken when its value can be read and nothing of what it sets was set. -/
theorem take_eq_ok {item : Item} :
    parse.take usizeMax item = .ok after ↔
      item.Readable usizeMax ∧ (∀ r ∈ item.needs, ¬parse.Taken r) ∧
        parse.write usizeMax item = after := by
  cases item with
  | header name value => simp [Parse.take, Item.Readable, Item.needs, Parse.write]
  | positional text => simp [Parse.take, Item.Readable, Item.needs, Parse.write]
  | switch flag =>
      simp [Parse.take, Parse.turnOn, check_bind_eq_ok, Item.Readable, Item.needs, Parse.Taken,
        ValueFlag.setsAddress, Parse.write, Parse.flip, pure, Except.pure]
  | value flag text =>
      rw [Parse.take, check_bind_eq_ok]
      cases flag with
      | bind =>
          rw [admits_bind, assign_bind]
          by_cases hPort : (boundPort text).isSome = true <;>
            simp [Item.Readable, Item.needs, Parse.Taken, ValueFlag.setsAddress, Parse.write, hPort]
          all_goals grind
      | port =>
          rw [admits_port]
          cases hRead : readPortValue text <;>
            simp [Parse.assign, Item.Readable, Item.needs, Parse.Taken, ValueFlag.setsAddress,
              Parse.write, Parse.store, hRead, Except.isOk, Except.toBool, Except.map,
              Except.toOption]
          grind
      | addr =>
          rw [admits_addr, assign_addr]
          simp [Item.Readable, Item.needs, Parse.Taken, ValueFlag.setsAddress, Parse.write]
          grind
      | limit flag =>
          cases hRead : readLimit usizeMax flag text <;>
            simp [Parse.admits, Parse.assign, Item.Readable, Item.needs, Parse.Taken,
              ValueFlag.setsAddress, Parse.write, Parse.store, Parse.setLimit, hRead, Except.isOk,
              Except.toBool, Except.map, Except.toOption]
      | logFormat =>
          cases hRead : readLogFormat text <;>
            simp [Parse.admits, Parse.assign, Item.Readable, Item.needs, Parse.Taken,
              ValueFlag.setsAddress, Parse.write, Parse.store, hRead, Except.isOk, Except.toBool,
              bind, Except.bind, pure, Except.pure, Except.toOption]
      | maxRequestsPerConnection =>
          cases hRead : readMaxRequests text <;>
            simp [Parse.admits, Parse.assign, Item.Readable, Item.needs, Parse.Taken,
              ValueFlag.setsAddress, Parse.write, Parse.store, hRead, Except.isOk, Except.toBool,
              bind, Except.bind, pure, Except.pure, Except.toOption]
      | directory | contentType | tlsCert | tlsKey =>
          simp [Parse.admits, Parse.assign, Item.Readable, Item.needs, Parse.Taken,
            ValueFlag.setsAddress, Parse.write, Parse.store]

theorem host_mem_bind (text : Str) : .host ∈ (Item.value .bind text).needs := by
  by_cases h : (boundPort text).isSome = true <;> simp [Item.needs, h]

theorem port_mem_bind {text : Str} :
    .port ∈ (Item.value .bind text).needs ↔ (boundPort text).isSome = true := by
  by_cases h : (boundPort text).isSome = true <;> simp [Item.needs, h]

theorem value_mem_needs {flag other : ValueFlag} {text : Str} :
    .value other ∈ (Item.value flag text).needs ↔ flag.setsAddress = false ∧ other = flag := by
  cases flag with
  | bind =>
      by_cases h : (boundPort text).isSome = true <;> simp [Item.needs, ValueFlag.setsAddress, h]
  | _ => simp [Item.needs, ValueFlag.setsAddress]

theorem switch_not_mem_needs {flag : ValueFlag} {text : Str} {other : Switch} :
    .switch other ∉ (Item.value flag text).needs := by
  cases flag with
  | bind => by_cases h : (boundPort text).isSome = true <;> simp [Item.needs, h]
  | _ => simp [Item.needs]

theorem seen_mark_store {flag other : ValueFlag} {text : Str} :
    ((parse.mark flag).store usizeMax flag text).seen other = true ↔
      other = flag ∨ parse.seen other = true := by
  cases flag <;> simp [Parse.mark, Parse.store, Parse.setPort]

theorem taken_mark_store {flag : ValueFlag} {text : Str} (r : Resource) :
    ((parse.mark flag).store usizeMax flag text).Taken r ↔
      parse.Taken r ∨ r ∈ (Item.value flag text).needs := by
  cases r with
  | value other =>
      rw [value_mem_needs, Parse.Taken, seen_mark_store]
      constructor
      · rintro ⟨hOwn, rfl | hSeen⟩
        · exact .inr ⟨hOwn, rfl⟩
        · exact .inl ⟨hOwn, hSeen⟩
      · rintro (⟨hOwn, hSeen⟩ | ⟨hOwn, rfl⟩)
        · exact ⟨hOwn, .inr hSeen⟩
        · exact ⟨hOwn, .inl rfl⟩
  | switch other =>
      rw [or_iff_left switch_not_mem_needs]
      cases flag <;> exact Iff.rfl
  | host =>
      rw [Parse.Taken, seen_mark_store, seen_mark_store]
      cases flag with
      | bind => simp [host_mem_bind]
      | _ => simp [Item.needs, Parse.Taken]
  | port =>
      rw [Parse.Taken, seen_mark_store]
      cases flag with
      | bind =>
          rw [port_mem_bind]
          simp [Parse.Taken, Parse.store, Parse.mark]
          grind
      | _ => simp [Item.needs, Parse.Taken, Parse.store, Parse.setPort, Parse.mark]

theorem taken_write {item : Item} (r : Resource) :
    (parse.write usizeMax item).Taken r ↔ parse.Taken r ∨ r ∈ item.needs := by
  cases item with
  | value flag text => exact taken_mark_store r
  | header name value => cases r <;> simp [Parse.write, Item.needs, Parse.Taken]
  | positional text => cases r <;> simp [Parse.write, Item.needs, Parse.Taken]
  | switch flag =>
      cases r with
      | switch other =>
          by_cases h : other = flag <;>
            simp [Parse.write, Parse.flip, Item.needs, Parse.Taken, h]
      | _ => simp [Parse.write, Parse.flip, Item.needs, Parse.Taken]

theorem needs_nodup (item : Item) : item.needs.Nodup := by
  cases item with
  | value flag text =>
      cases flag with
      | bind =>
          by_cases h : (boundPort text).isSome = true <;> simp [Item.needs, h]
      | _ => simp [Item.needs]
  | switch flag => simp [Item.needs]
  | header name value => exact List.nodup_nil
  | positional text => exact List.nodup_nil

/-- The step of the loop, where the text of a failure is not looked at. -/
def takeStep (usizeMax : Nat) (parse : Parse) (item : Item) : Option Parse :=
  (parse.take usizeMax item).toOption

theorem taking : Taking (takeStep usizeMax) Parse.Taken Item.needs (Item.Readable usizeMax)
    fun item parse => parse.write usizeMax item where
  once := needs_nodup
  step_eq_some parse item after := by
    rw [← take_eq_ok, takeStep]
    cases parse.take usizeMax item <;> simp [Except.toOption]
  taken_write parse item r _ := taken_write r

/-! Writes of different parts can be exchanged. -/

theorem store_mark (flag other : ValueFlag) (text : Str) (parse : Parse) :
    (parse.mark other).store usizeMax flag text = (parse.store usizeMax flag text).mark other := by
  cases flag <;> rfl

theorem mark_comm (first second : ValueFlag) (parse : Parse) :
    (parse.mark first).mark second = (parse.mark second).mark first := by
  unfold Parse.mark
  congr 1
  funext other
  dsimp only
  split_ifs <;> rfl

theorem flip_comm (first second : Switch) (parse : Parse) :
    (parse.flip first).flip second = (parse.flip second).flip first := by
  unfold Parse.flip
  congr 1
  funext other
  dsimp only
  split_ifs <;> rfl

theorem store_comm {first second : ValueFlag} {text other : Str}
    (hDisjoint : List.Disjoint (Item.value first text).needs (Item.value second other).needs)
    (parse : Parse) :
    (parse.store usizeMax first text).store usizeMax second other =
      (parse.store usizeMax second other).store usizeMax first text := by
  have hHost {one two : Str}
      (h : List.Disjoint (Item.value .bind one).needs (Item.value .bind two).needs) : False :=
    h (host_mem_bind one) (host_mem_bind two)
  cases first <;> cases second <;> try rfl
  case bind.bind => exact (hHost hDisjoint).elim
  case bind.addr => exact (hDisjoint (host_mem_bind text) (by simp [Item.needs])).elim
  case addr.bind => exact (hDisjoint (by simp [Item.needs]) (host_mem_bind other)).elim
  case bind.port =>
    have hPort : boundPort text = none := by
      rw [← Option.not_isSome_iff_eq_none, ← port_mem_bind]
      exact fun hMem => hDisjoint hMem (by simp [Item.needs])
    simp [Parse.store, Parse.setPort, hPort]
  case port.bind =>
    have hPort : boundPort other = none := by
      rw [← Option.not_isSome_iff_eq_none, ← port_mem_bind]
      exact fun hMem => hDisjoint (by simp [Item.needs]) hMem
    simp [Parse.store, Parse.setPort, hPort]
  case limit.limit one two =>
    have hNe : one ≠ two := by
      rintro rfl
      simp [Item.needs] at hDisjoint
    have hLimits (x y : Option Nat) (before : LimitFlag → Option Nat) :
        (fun flag => if flag = two then y else if flag = one then x else before flag) =
          fun flag => if flag = one then x else if flag = two then y else before flag := by
      funext flag
      split_ifs with hTwo hOne
      · exact absurd (hOne.symm.trans hTwo) hNe
      · rfl
      · rfl
      · rfl
    simp only [Parse.store, hLimits]
  all_goals simp [Item.needs] at hDisjoint

/-- Headers and positional arguments are lists, so their order counts. -/
inductive Listed where
  | header
  | positional
  deriving DecidableEq

def Item.listed : Item → Option Listed
  | .header _ _ => some .header
  | .positional _ => some .positional
  | _ => none

theorem write_comm {first second : Item}
    (hListed : first.listed = none ∨ first.listed ≠ second.listed)
    (hDisjoint : List.Disjoint first.needs second.needs) (parse : Parse) :
    (parse.write usizeMax first).write usizeMax second =
      (parse.write usizeMax second).write usizeMax first := by
  cases first with
  | value first text =>
      cases second with
      | value second other =>
          calc (((parse.mark first).store usizeMax first text).mark second).store usizeMax
                  second other
              = (((parse.mark first).mark second).store usizeMax first text).store usizeMax
                  second other := by rw [store_mark first second]
            _ = (((parse.mark second).mark first).store usizeMax second other).store usizeMax
                  first text := by rw [store_comm hDisjoint, mark_comm]
            _ = (((parse.mark second).store usizeMax second other).mark first).store usizeMax
                  first text := by rw [store_mark second first]
      | switch flag => cases first <;> rfl
      | header name value => cases first <;> rfl
      | positional other => cases first <;> rfl
  | switch flag =>
      cases second with
      | value second other => cases second <;> rfl
      | switch other => exact flip_comm flag other parse
      | header name value => rfl
      | positional other => rfl
  | header name value =>
      cases second with
      | value second other => cases second <;> rfl
      | switch flag => rfl
      | header other otherValue => simp [Item.listed] at hListed
      | positional other => rfl
  | positional text =>
      cases second with
      | value second other => cases second <;> rfl
      | switch flag => rfl
      | header name value => rfl
      | positional other => simp [Item.listed] at hListed

theorem foldlM_take (items : List Item) (parse : Parse) :
    (items.foldlM (Parse.take usizeMax) parse).toOption =
      items.foldlM (takeStep usizeMax) parse := by
  induction items generalizing parse with
  | nil => rfl
  | cons item items ih =>
      rw [List.foldlM_cons, List.foldlM_cons]
      show _ = ((parse.take usizeMax item).toOption).bind _
      cases parse.take usizeMax item with
      | error e => rfl
      | ok next => exact ih next

end

variable {env : Environment} {args otherArgs : List Str} {items other : List Item}

theorem parseLine_takeStep (h : Spelled items args) {parse : Parse} :
    parseLine env.usizeMax args {} = .ok parse ↔
      items.foldlM (takeStep env.usizeMax) {} = some parse := by
  rw [parseLine_spelled h, ← foldlM_take]
  cases items.foldlM (Parse.take env.usizeMax) {} <;> simp [Except.toOption]

/-- The loop ends with what the items leave behind. -/
theorem parseLine_collect (h : Spelled items args) {parse : Parse} :
    parseLine env.usizeMax args {} = .ok parse ↔
      (∀ item ∈ items, item.Readable env.usizeMax) ∧ (items.flatMap Item.needs).Nodup ∧
        collect env.usizeMax items = parse := by
  have hFree (r : Resource) : ¬Parse.Taken {} r := by
    cases r <;> simp [Parse.Taken]
  rw [parseLine_takeStep h, taking.foldlM_eq_some]
  exact and_congr_right fun _ => and_congr_right fun _ => and_iff_right fun r _ => hFree r

theorem parseFrom_eq (env : Environment) (args : List Str) :
    parseFrom env args = parseLine env.usizeMax args {} >>= finish env := by
  rw [parseFrom, parseLine, bind_assoc]

theorem exists_items {parsed : Args} (h : parseFrom env args = .ok parsed) :
    ∃ items, Spelled items args ∧ (∀ item ∈ items, item.Readable env.usizeMax) ∧
      (items.flatMap Item.needs).Nodup ∧ finish env (collect env.usizeMax items) = .ok parsed := by
  rw [parseFrom_eq] at h
  obtain ⟨parse, hLine, hFinish⟩ := bind_eq_ok.mp h
  obtain ⟨items, hSpelled⟩ := exists_spelled hLine
  obtain ⟨hRead, hNodup, rfl⟩ := (parseLine_collect hSpelled).mp hLine
  exact ⟨items, hSpelled, hRead, hNodup, hFinish⟩

/-- A command line is accepted exactly when it spells options that can all be read and that
claim nothing twice, and what they leave behind is sound. -/
theorem parseFrom_eq_ok_iff (env : Environment) (args : List Str) (parsed : Args) :
    parseFrom env args = .ok parsed ↔
      ∃ items, Spelled items args ∧ (∀ item ∈ items, item.Readable env.usizeMax) ∧
        (items.flatMap Item.needs).Nodup ∧ finish env (collect env.usizeMax items) = .ok parsed := by
  constructor
  · exact exists_items
  · rintro ⟨items, hSpelled, hRead, hNodup, hFinish⟩
    rw [parseFrom_eq]
    exact bind_eq_ok.mpr ⟨_, (parseLine_collect hSpelled).mpr ⟨hRead, hNodup, rfl⟩, hFinish⟩

/-- The order of the options and the way they are written do not count, as long as the
headers keep their order and the positional arguments theirs. -/
theorem option_order_irrelevant (hItems : Spelled items args) (hOther : Spelled other otherArgs)
    (hPerm : items.Perm other)
    (hListed : ∀ kind, items.filter (Item.listed · = some kind) =
      other.filter (Item.listed · = some kind)) :
    (parseFrom env args).toOption = (parseFrom env otherArgs).toOption := by
  have hRun : items.foldlM (takeStep env.usizeMax) {} = other.foldlM (takeStep env.usizeMax) {} :=
    foldlM_reorder (fun first second hKind => taking.commutes fun hDisjoint parse =>
      write_comm hKind hDisjoint parse) hPerm hListed _
  apply Option.ext
  intro parsed
  have hOk {result : Except Str Args} : result.toOption = some parsed ↔ result = .ok parsed := by
    cases result <;> simp [Except.toOption]
  rw [hOk, hOk, parseFrom_eq, parseFrom_eq, bind_eq_ok, bind_eq_ok]
  apply exists_congr
  intro parse
  rw [parseLine_takeStep hItems, parseLine_takeStep hOther, hRun]

/-- A machine of 64 bits without a resolver. -/
def offline : Environment where
  usizeMax := 2 ^ 64 - 1
  toSocketAddrs _ _ := .error "no resolver"

/-- The same options, once spelled out and once attached and in another order. -/
theorem option_order_irrelevant_quiet :
    (parseFrom offline ["--port", "80", "--quiet", "-H", "x-a", "1", "site"]).toOption =
      (parseFrom offline ["--quiet", "--header=x-a=1", "--port=80", "--", "site"]).toOption := by
  have hValue (text : Str) (h : text.head? ≠ some '-') : IsValue text := isValue_of_head h
  have hItems : Spelled
      [.value .port "80", .switch .quiet, .header "x-a" "1", .positional "site"]
      ["--port", "80", "--quiet", "-H", "x-a", "1", "site"] :=
    .next (.plain (.value .port (hValue "80" (by decide))))
      (.next (.plain (.switch .quiet)) (.next (.plain (.header (by decide)
        (hValue "x-a" (by decide)) (hValue "1" (by decide))))
          (.next (.plain (.positional (by decide))) .nil)))
  have hOther : Spelled
      [.switch .quiet, .header "x-a" "1", .value .port "80", .positional "site"]
      ["--quiet", "--header=x-a=1", "--port=80", "--", "site"] :=
    .next (.plain (.switch .quiet)) (.next (.headerAttached (by decide)
      (hValue "x-a" (by decide)) (hValue "1" (by decide)))
        (.next (.attached .port (hValue "80" (by decide))) (.rest ["site"])))
  refine option_order_irrelevant hItems hOther (by decide) fun kind => ?_
  cases kind <;> rfl

end Eggserve.Bin
