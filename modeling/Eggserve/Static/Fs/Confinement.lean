import Eggserve.Static.Fs.Resolve

/-! What a resolved descriptor is worth while others rewrite the tree. The look
before an open proves nothing about the open, so every guarantee comes from the
open itself and from the names, which are single segments. -/
namespace Eggserve.Static
open Rust Posix Eggserve.Primitives

/-- A confined component names one entry of one directory. -/
theorem ConfinedComponent.singleSegment {policy : PathPolicy} {component : Str}
    (h : ConfinedComponent policy component) : SingleSegment (utf8 component) where
  nonempty := fun hEmpty => h.nonempty (utf8_injective hEmpty)
  no_slash := fun hMem => by
    obtain ⟨c, hc, hCode⟩ := (mem_utf8_ascii (by decide)).mp hMem
    exact h.no_slash (char_eq_of_toNat (d := '/') hCode ▸ hc)
  no_nul := fun hMem => by
    obtain ⟨c, hc, hCode⟩ := (mem_utf8_ascii (by decide)).mp hMem
    exact h.no_nul (char_eq_of_toNat (d := '\x00') hCode ▸ hc)
  not_current := fun hEq => h.not_current (utf8_injective (hEq.trans (by decide)))
  not_parent := fun hEq => h.not_parent (utf8_injective (hEq.trans (by decide)))

/-- The path policy a child name is admitted under. -/
def childPathPolicy (policy : StaticPolicy) (rejectBackslash : Bool) : PathPolicy where
  dotfiles := if policy.dotfiles = .denied then .denied else .allow
  rejectBackslash := rejectBackslash

/-- The two validators check the same rules in different orders. -/
theorem validateChildComponentWithPolicy_eq_ok {child : Str} {policy : StaticPolicy}
    {rejectBackslash : Bool} :
    validateChildComponentWithPolicy child (policy.dotfiles = .denied) rejectBackslash = .ok () ↔
      ConfinedComponent (childPathPolicy policy rejectBackslash) child := by
  rw [← validateComponent_eq_ok]
  have hDotfiles : (childPathPolicy policy rejectBackslash).dotfiles = .denied ↔
      policy.dotfiles = .denied := by
    unfold childPathPolicy
    split_ifs with hDenied <;> simp [hDenied]
  have hBackslash : (childPathPolicy policy rejectBackslash).rejectBackslash = rejectBackslash :=
    rfl
  simp only [validateChildComponentWithPolicy, validateComponent, check_bind_eq_ok, failIf_eq_ok,
    decide_eq_true_eq]
  rw [hDotfiles, hBackslash]
  tauto

variable {ν : Type} (history : History ν Attributes)

/-- The descriptor was reached from the root by the opens of the process, one for
each component and in their order. -/
structure Reached (root : ν) (policy : StaticPolicy) (components : List Str) (p : Process ν)
    (fd : ν) : Prop where
  chain : history.Chain root p.opens fd p.clock
  names : p.opens.map Open.name = components.map utf8
  no_dotfile : policy.dotfiles = .denied →
    ∀ component ∈ components, component.head? ≠ some '.'

/-- What a resource is confined to. Only files and directories have a descriptor. -/
def Confined (root : ν) (policy : StaticPolicy) (components : List Str) (p : Process ν) :
    ResolvedResource ν → Prop
  | .file file =>
      Reached history root policy components p file.inode ∧
        history.fileType file.inode = .regular ∧ file.safeRelativeComponents = components
  | .directory directory =>
      Reached history root policy components p directory.dirFd ∧
        history.fileType directory.dirFd = .directory ∧ directory.components = components
  | .notFound | .denied _ | .ioError _ => True

variable {history} {root fd : ν} {policy : StaticPolicy} {components : List Str}
  {p done : Process ν}

theorem Reached.later (hReached : Reached history root policy components p fd)
    (hOpens : done.opens = p.opens) (hClock : p.clock ≤ done.clock) :
    Reached history root policy components done fd where
  chain := hOpens ▸ hReached.chain.mono hClock
  names := hOpens ▸ hReached.names
  no_dotfile := hReached.no_dotfile

/-- One open takes a reached directory to its entry of that instant. -/
theorem Reached.openat {dir : ν} {component : Str} {directory : Bool}
    (hReached : Reached history root policy components p dir)
    (hName : SingleSegment (utf8 component))
    (hDotfile : policy.dotfiles = .denied → component.head? ≠ some '.')
    (hOpen : history.openat dir (utf8 component) directory p = (.ok fd, done)) :
    Reached history root policy (components ++ [component]) done fd := by
  obtain ⟨hChain, hNames, -⟩ := hReached.chain.openat hName hOpen
  refine ⟨hChain, ?_, ?_⟩
  · rw [hNames, hReached.names, List.map_append, List.map_singleton]
  · intro hDenied
    rw [List.forall_mem_append, List.forall_mem_singleton]
    exact ⟨hReached.no_dotfile hDenied, hDotfile hDenied⟩

/-- The look before an open opens nothing and yields no descriptor. -/
theorem precheck_spec {component : Str} {isFinal : Bool} {outcome : Option (ResolvedResource ν)}
    (hPrecheck : precheck history policy fd component isFinal p = (outcome, done)) :
    done.opens = p.opens ∧ p.clock ≤ done.clock ∧
      ∀ resource, outcome = some resource →
        ∀ root components q, Confined history root policy components q resource := by
  unfold precheck History.statat at hPrecheck
  split_ifs at hPrecheck with hDenied
  · cases hLookup : history.lookup p.clock fd (utf8 component) with
    | error errno =>
        simp only [hLookup, Except.map, Prod.mk.injEq] at hPrecheck
        obtain ⟨rfl, rfl⟩ := hPrecheck
        simp [Confined]
    | ok inode =>
        simp only [hLookup, Except.map] at hPrecheck
        split_ifs at hPrecheck <;>
          obtain ⟨rfl, rfl⟩ := Prod.mk.inj hPrecheck <;>
          simp [Confined]
  · obtain ⟨rfl, rfl⟩ := Prod.mk.inj hPrecheck
    simp

/-- A component that was opened is the entry found by the open; one that was not
yields no descriptor. -/
theorem openComponent_spec {component : Str} {isFinal : Bool} {dir : ν}
    {outcome : Except (ResolvedResource ν) ν}
    (hReached : Reached history root policy components p dir)
    (hName : SingleSegment (utf8 component))
    (hDotfile : policy.dotfiles = .denied → component.head? ≠ some '.')
    (hOpen : openComponent history policy dir component isFinal p = (outcome, done)) :
    match outcome with
    | .ok newFd => Reached history root policy (components ++ [component]) done newFd
    | .error resource => ∀ components, Confined history root policy components done resource := by
  unfold openComponent at hOpen
  split at hOpen
  · rename_i hPrecheck
    obtain ⟨rfl, rfl⟩ := Prod.mk.inj hOpen
    exact fun components => (precheck_spec hPrecheck).2.2 _ rfl _ components _
  · rename_i hPrecheck
    obtain ⟨hOpens, hClock, -⟩ := precheck_spec hPrecheck
    split at hOpen
    · rename_i errno _ _
      obtain ⟨rfl, rfl⟩ := Prod.mk.inj hOpen
      intro components
      cases errno <;> trivial
    · rename_i hCall
      obtain ⟨rfl, rfl⟩ := Prod.mk.inj hOpen
      exact (hReached.later hOpens hClock).openat hName hDotfile hCall

/-- The type that is reported is that of the opened inode. -/
theorem confined_classifyOpened {canonicalRoot : Str} {rejectBackslash : Bool}
    {resource : ResolvedResource ν} (hReached : Reached history root policy components p fd)
    (hClassify : classifyOpened history canonicalRoot components rejectBackslash fd p =
      (resource, done)) :
    Confined history root policy components done resource := by
  unfold classifyOpened at hClassify
  split at hClassify
  · obtain ⟨rfl, rfl⟩ := Prod.mk.inj hClassify
    trivial
  · rename_i hStat
    obtain ⟨hType, rfl⟩ := History.fstat_eq_ok hStat
    obtain ⟨rfl, rfl⟩ := Prod.mk.inj hClassify
    exact ⟨hReached.later rfl (Nat.le_succ _), hType, rfl⟩
  · rename_i hStat
    obtain ⟨hType, rfl⟩ := History.fstat_eq_ok hStat
    obtain ⟨rfl, rfl⟩ := Prod.mk.inj hClassify
    exact ⟨hReached.later rfl (Nat.le_succ _), hType, rfl⟩
  · obtain ⟨rfl, rfl⟩ := Prod.mk.inj hClassify
    trivial

/-- The loop, by induction on the components still to open: the descriptor it
holds was reached through the ones already opened. -/
theorem confined_resolveComponents {canonicalRoot : Str} {rejectBackslash : Bool}
    {opened rest : List Str} {currentFd : ν} {resource : ResolvedResource ν}
    (hComponents : components = opened ++ rest)
    (hNames : ∀ component ∈ rest, SingleSegment (utf8 component))
    (hReached : Reached history root policy opened p currentFd)
    (hResolve : resolveComponents history canonicalRoot components policy rejectBackslash rest
      currentFd p = (resource, done)) :
    Confined history root policy components done resource := by
  induction rest generalizing opened currentFd p with
  | nil =>
      obtain ⟨rfl, rfl⟩ := Prod.mk.inj hResolve
      trivial
  | cons component rest ih =>
      obtain ⟨hName, hRest⟩ := List.forall_mem_cons.mp hNames
      unfold resolveComponents at hResolve
      split at hResolve
      · obtain ⟨rfl, rfl⟩ := Prod.mk.inj hResolve
        trivial
      · rename_i hDot
        have hDotfile : policy.dotfiles = .denied → component.head? ≠ some '.' :=
          fun hDenied hHead => hDot ⟨hDenied, hHead⟩
        split at hResolve
        · obtain ⟨rfl, rfl⟩ := Prod.mk.inj hResolve
          trivial
        · split at hResolve
          · rename_i hOpen
            obtain ⟨rfl, rfl⟩ := Prod.mk.inj hResolve
            exact openComponent_spec hReached hName hDotfile hOpen components
          · rename_i hOpen
            have hNext := openComponent_spec hReached hName hDotfile hOpen
            split_ifs at hResolve with hFinal
            · obtain rfl : components = opened ++ [component] := by
                rw [hComponents, List.isEmpty_iff.mp hFinal]
              exact confined_classifyOpened hNext hResolve
            · exact ih (by rw [hComponents, List.append_assoc, List.singleton_append]) hRest
                hNext hResolve

/-- Before any open, the root has been reached by none. -/
theorem reached_root (t : Nat) : Reached history root policy [] ⟨t, []⟩ root :=
  ⟨.nil t, rfl, fun _ _ hMem => absurd hMem List.not_mem_nil⟩

theorem confined_resolveRoot {canonicalRoot : Str} {rejectBackslash : Bool}
    {resource : ResolvedResource ν} {t : Nat} (hRoot : history.fileType root = .directory)
    (hResolve : resolveRoot history root canonicalRoot rejectBackslash ⟨t, []⟩ =
      (resource, done)) :
    Confined history root policy [] done resource := by
  unfold resolveRoot History.dup at hResolve
  cases hFault : history.fault t with
  | some errno =>
      simp only [hFault] at hResolve
      obtain ⟨rfl, rfl⟩ := Prod.mk.inj hResolve
      trivial
  | none =>
      simp only [hFault] at hResolve
      obtain ⟨rfl, rfl⟩ := Prod.mk.inj hResolve
      exact ⟨(reached_root t).later rfl (Nat.le_succ t), hRoot, rfl⟩

theorem confined_resolveFdRelative {canonicalRoot : Str} {rejectBackslash : Bool}
    {resource : ResolvedResource ν} {t : Nat} (hRoot : history.fileType root = .directory)
    (hNames : ∀ component ∈ components, SingleSegment (utf8 component))
    (hResolve : resolveFdRelative history root canonicalRoot components policy rejectBackslash
      ⟨t, []⟩ = (resource, done)) :
    Confined history root policy components done resource := by
  unfold resolveFdRelative at hResolve
  split_ifs at hResolve with hEmpty
  · rw [List.isEmpty_iff.mp hEmpty]
    exact confined_resolveRoot hRoot hResolve
  · exact confined_resolveComponents rfl hNames (reached_root t) hResolve

theorem confined_resolveChildFd {canonicalRoot child : Str} {rejectBackslash : Bool} {dirFd : ν}
    {resource : ResolvedResource ν} (hReached : Reached history root policy components p dirFd)
    (hResolve : resolveChildFd history dirFd components canonicalRoot child policy rejectBackslash
      p = (resource, done)) :
    Confined history root policy (components ++ [child]) done resource := by
  unfold resolveChildFd at hResolve
  split at hResolve
  · obtain ⟨rfl, rfl⟩ := Prod.mk.inj hResolve
    trivial
  · rename_i hValid
    have hChild := validateChildComponentWithPolicy_eq_ok.mp hValid
    have hDotfile : policy.dotfiles = .denied → child.head? ≠ some '.' :=
      fun hDenied => hChild.no_dotfile (if_pos hDenied)
    split at hResolve
    · rename_i hOpen
      obtain ⟨rfl, rfl⟩ := Prod.mk.inj hResolve
      exact openComponent_spec hReached hChild.singleSegment hDotfile hOpen _
    · rename_i hOpen
      exact confined_classifyOpened
        (openComponent_spec hReached hChild.singleSegment hDotfile hOpen) hResolve

/-- A resource obtained from the root by a confined path and then by child names,
with any delay between the calls. The process holds the opens of these calls. -/
inductive Obtained (fallback : Fallback ν) (pinned : PinnedRoot history) (policy : StaticPolicy) :
    List Str → Process ν → ResolvedResource ν → Prop where
  | resolve (t : Nat) {path : Str} {pathPolicy : PathPolicy} {confined : ConfinedPath}
      {resource : ResolvedResource ν} {done : Process ν}
      (hConfined : ConfinedPath.fromPathComponent path pathPolicy = .ok confined)
      (hResolve : RootGuard.resolve fallback pinned confined policy ⟨t, []⟩ = (resource, done)) :
      Obtained fallback pinned policy confined.components done resource
  | child (t : Nat) (name : Str) {components : List Str} {p : Process ν}
      {dir : ResolvedDirectory ν} {resource : ResolvedResource ν} {done : Process ν}
      (hDirectory : Obtained fallback pinned policy components p (.directory dir))
      (hLater : p.clock ≤ t)
      (hResolve : RootGuard.resolveChild fallback pinned dir name policy ⟨t, p.opens⟩ =
        (resource, done)) :
      Obtained fallback pinned policy (components ++ [name]) done resource

/-- With links denied, every descriptor that resolution hands out was reached
from the pinned root through one entry for each component, none of them a link
when it was opened, however the tree was rewritten in the meantime. -/
theorem obtained_confined {fallback : Fallback ν} {pinned : PinnedRoot history}
    {resource : ResolvedResource ν} (hSymlinks : policy.symlinks = .denied)
    (hObtained : Obtained fallback pinned policy components p resource) :
    Confined history pinned.rootFd policy components p resource := by
  induction hObtained with
  | resolve t hConfined hResolve =>
      have hAdmitted := ConfinedPath.admitted_of_fromPathComponent hConfined
      rw [RootGuard.resolve, if_pos hSymlinks] at hResolve
      exact confined_resolveFdRelative pinned.is_directory
        (fun component hMem => (hAdmitted.confined component hMem).singleSegment) hResolve
  | child t name _ hLater hResolve ih =>
      obtain ⟨hReached, -, rfl⟩ := ih
      unfold RootGuard.resolveChild at hResolve
      split at hResolve
      · obtain ⟨rfl, rfl⟩ := Prod.mk.inj hResolve
        trivial
      · rw [if_pos hSymlinks] at hResolve
        have hWaited : Reached history pinned.rootFd policy _ ⟨t, _⟩ _ := hReached.later rfl hLater
        exact confined_resolveChildFd hWaited hResolve

/-- A tree under attack: the directory `docs` is replaced by a link after it was
opened, and the file `a` in it by another file between the look and the open. -/
def swappedHistory : History Nat Attributes where
  fileType inode :=
    match inode with
    | 0 | 1 => .directory
    | 2 | 3 => .regular
    | _ => .symlink
  entry t dir name :=
    if dir = 0 ∧ name = utf8 "docs" then some (if t < 2 then 1 else 4)
    else if dir = 1 ∧ name = utf8 "a" then some (if t < 6 then 2 else 3)
    else none
  walk _ _ _ := none
  attributes _ _ :=
    { content := [], metadata := { len := 0, modified := none, len_le := Nat.zero_le _ } }
  fault _ := none
  linkErrno _ := .loop

def swappedRoot : PinnedRoot swappedHistory where
  canonicalRoot := "/srv"
  rootFd := 0
  is_directory := rfl

theorem obtained_confined_swapped :
    ∃ file p, Obtained (fun _ _ _ p => (.notFound, p)) swappedRoot {}
        ["docs".toList, "a".toList] p (.file file) ∧ file.inode = 3 ∧
      Confined swappedHistory 0 {} ["docs".toList, "a".toList] p (.file file) := by
  have hPath : ConfinedPath.fromPathComponent "/docs" {} =
      .ok { decoded := "/docs", components := ["docs"], pathPolicy := {} } := by decide +kernel
  have hDirectory : Obtained (fun _ _ _ p => (.notFound, p)) swappedRoot {} ["docs".toList]
      ⟨3, [⟨1, 0, utf8 "docs", 1⟩]⟩
      (.directory { dirFd := 1, canonicalPath := "/srv/docs", components := ["docs"]
                    rejectBackslash := true }) :=
    .resolve 0 hPath rfl
  have hFile := Obtained.child 5 "a" hDirectory (by decide) rfl
  exact ⟨_, _, hFile, rfl, obtained_confined rfl hFile⟩

end Eggserve.Static
