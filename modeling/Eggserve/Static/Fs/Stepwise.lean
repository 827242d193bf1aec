import Eggserve.Posix.Tree
import Eggserve.Static.Fs.Confinement

/-! Resolving a directory and then a child of it, against resolving the whole
path. The two resolvers open a directory with different flags, and the two
validators list the same rules in different orders. -/
namespace Eggserve.Static
open Rust Posix Eggserve.Primitives

/-- Both validators admit the same single components. -/
theorem validateComponents_singleton_eq_ok (child : Str) (pathPolicy : PathPolicy) :
    validateComponents [child] pathPolicy = .ok () ↔
      validateChildComponentWithPolicy child (pathPolicy.dotfiles = .denied)
        pathPolicy.rejectBackslash = .ok () := by
  obtain ⟨dotfiles, rejectBackslash⟩ := pathPolicy
  rw [validateComponents_eq_ok, List.forall_mem_singleton]
  cases dotfiles with
  | denied =>
      exact (@validateChildComponentWithPolicy_eq_ok child { dotfiles := .denied } _).symm
  | allow =>
      exact (@validateChildComponentWithPolicy_eq_ok child { dotfiles := .serve } _).symm

variable {ν : Type} {tree : Tree ν Attributes} {policy : StaticPolicy}

/-- The look before an open depends on the tree alone. -/
theorem precheck_unchanged (fd : ν) (component : Str) (isFinal : Bool) (p q : Process ν) :
    (precheck tree.unchanged policy fd component isFinal p).1 =
      (precheck tree.unchanged policy fd component isFinal q).1 := by
  unfold precheck
  split_ifs with hSymlinks
  · rw [← Prod.eta (tree.unchanged.statat fd (utf8 component) p),
      ← Prod.eta (tree.unchanged.statat fd (utf8 component) q),
      tree.statat_unchanged fd (utf8 component) p q]
    cases (tree.unchanged.statat fd (utf8 component) q).1 with
    | error errno => rfl
    | ok fileType =>
        dsimp only
        split_ifs <;> rfl
  · rfl

/-- What the look and the open of a component come to. -/
theorem openComponent_fst (fd : ν) (component : Str) (isFinal : Bool) (p : Process ν) :
    (openComponent tree.unchanged policy fd component isFinal p).1 =
      match (precheck tree.unchanged policy fd component isFinal ⟨0, []⟩).1 with
      | some resource => .error resource
      | none =>
          match tree.unchanged.openEntry 0 fd (utf8 component) (!isFinal) with
          | .error errno => .error (openFailure errno)
          | .ok newFd => .ok newFd := by
  rw [precheck_unchanged fd component isFinal ⟨0, []⟩ p]
  unfold openComponent
  obtain ⟨outcome, q⟩ := precheck tree.unchanged policy fd component isFinal p
  cases outcome with
  | some resource => rfl
  | none =>
      dsimp only
      rw [← tree.openat_unchanged fd (utf8 component) (!isFinal) q]
      obtain ⟨opened, q⟩ := tree.unchanged.openat fd (utf8 component) (!isFinal) q
      cases opened <;> rfl

theorem openComponent_unchanged (fd : ν) (component : Str) (isFinal : Bool) (p q : Process ν) :
    (openComponent tree.unchanged policy fd component isFinal p).1 =
      (openComponent tree.unchanged policy fd component isFinal q).1 := by
  rw [openComponent_fst, openComponent_fst]

theorem classifyOpened_unchanged (canonicalRoot : Str) (components : List Str)
    (rejectBackslash : Bool) (fd : ν) (p q : Process ν) :
    (classifyOpened tree.unchanged canonicalRoot components rejectBackslash fd p).1 =
      (classifyOpened tree.unchanged canonicalRoot components rejectBackslash fd q).1 := by
  simp only [classifyOpened, History.fstat, Tree.unchanged]
  cases tree.fileType fd <;> rfl

/-- The look at an inner component is the weaker one. -/
theorem precheck_inner {history : History ν Attributes} {fd : ν} {component : Str}
    {p : Process ν} (hLook : (precheck history policy fd component true p).1 = none) :
    (precheck history policy fd component false p).1 = none := by
  unfold precheck at hLook ⊢
  split_ifs at hLook ⊢ with hSymlinks
  · generalize history.statat fd (utf8 component) p = found at hLook ⊢
    obtain ⟨found, q⟩ := found
    cases found with
    | error errno => cases hLook
    | ok fileType =>
        simp only [true_and, false_and, ↓reduceIte] at hLook ⊢
        split_ifs at hLook ⊢ with hLink
        rfl
  · rfl

/-- A directory that opens as a last component opens as an inner one too. -/
theorem openComponent_inner {fd newFd : ν} {component : Str} (p q : Process ν)
    (hOpen : (openComponent tree.unchanged policy fd component true p).1 = .ok newFd)
    (hDirectory : tree.fileType newFd = .directory) :
    (openComponent tree.unchanged policy fd component false q).1 = .ok newFd := by
  rw [openComponent_fst] at hOpen ⊢
  simp only [Bool.not_true, Bool.not_false] at hOpen ⊢
  cases hLook : (precheck tree.unchanged policy fd component true ⟨0, []⟩).1 with
  | some resource => simp [hLook] at hOpen
  | none =>
      rw [precheck_inner hLook]
      cases hEntry : tree.unchanged.openEntry 0 fd (utf8 component) false with
      | error errno => simp [hLook, hEntry] at hOpen
      | ok found =>
          obtain rfl : found = newFd := by simpa [hLook, hEntry] using hOpen
          obtain ⟨hLookup, hLink, -⟩ := History.openEntry_eq_ok.mp hEntry
          have hInner : tree.unchanged.openEntry 0 fd (utf8 component) true = .ok found :=
            History.openEntry_eq_ok.mpr ⟨hLookup, hLink, fun _ => hDirectory⟩
          rw [hInner]

/-- A component that does not open is no directory. -/
theorem openComponent_error_ne_directory {fd : ν} {component : Str} {isFinal : Bool}
    {p : Process ν} {resource : ResolvedResource ν} (d : ResolvedDirectory ν)
    (hOpen : (openComponent tree.unchanged policy fd component isFinal p).1 = .error resource) :
    resource ≠ .directory d := by
  rintro rfl
  rw [openComponent_fst] at hOpen
  split at hOpen
  · rename_i resource hLook
    obtain rfl := Except.error.inj hOpen
    unfold precheck at hLook
    split_ifs at hLook
    generalize tree.unchanged.statat fd (utf8 component) ⟨0, []⟩ = found at hLook
    obtain ⟨found, q⟩ := found
    cases found with
    | error errno => cases hLook
    | ok fileType =>
        dsimp only at hLook
        split_ifs at hLook <;> cases hLook
  · split at hOpen
    · rename_i errno _
      cases errno <;> cases hOpen
    · cases hOpen

variable {canonicalRoot : Str} {rejectBackslash : Bool}

/-- What the loop comes to behind its first component. -/
def resolveRest (tree : Tree ν Attributes) (policy : StaticPolicy) (canonicalRoot : Str)
    (rejectBackslash : Bool) (components rest : List Str) (fd : ν) (p : Process ν) :
    ResolvedResource ν :=
  if rest.isEmpty then
    (classifyOpened tree.unchanged canonicalRoot components rejectBackslash fd p).1
  else
    (resolveComponents tree.unchanged canonicalRoot components policy rejectBackslash rest fd p).1

/-- The loop looks at its first component and goes on from what it opened. -/
theorem resolveComponents_cons_fst (components rest : List Str) (component : Str) (fd : ν)
    (p : Process ν) :
    (resolveComponents tree.unchanged canonicalRoot components policy rejectBackslash
        (component :: rest) fd p).1 =
      if policy.dotfiles = .denied ∧ component.head? = some '.' then .denied .dotfileDenied
      else
        match checkComponent component with
        | .error rejection => .denied rejection
        | .ok () =>
            match openComponent tree.unchanged policy fd component rest.isEmpty p with
            | (.error resource, _) => resource
            | (.ok newFd, q) =>
                resolveRest tree policy canonicalRoot rejectBackslash components rest newFd q := by
  conv_lhs => unfold resolveComponents
  by_cases hDot : policy.dotfiles = .denied ∧ component.head? = some '.'
  · rw [if_pos hDot, if_pos hDot]
  · rw [if_neg hDot, if_neg hDot]
    cases checkComponent component with
    | error rejection => rfl
    | ok _ =>
        dsimp only
        obtain ⟨opened, q⟩ := openComponent tree.unchanged policy fd component rest.isEmpty p
        cases opened with
        | error resource => rfl
        | ok newFd =>
            unfold resolveRest
            cases rest <;> rfl

/-- Resolution depends on the tree alone, not on the caller's past. -/
theorem resolveComponents_unchanged (components rest : List Str) (fd : ν) (p q : Process ν) :
    (resolveComponents tree.unchanged canonicalRoot components policy rejectBackslash rest
        fd p).1 =
      (resolveComponents tree.unchanged canonicalRoot components policy rejectBackslash rest
        fd q).1 := by
  induction rest generalizing fd p q with
  | nil => rfl
  | cons component rest ih =>
      rw [resolveComponents_cons_fst, resolveComponents_cons_fst]
      have hOpen : (openComponent tree.unchanged policy fd component rest.isEmpty p).1 =
          (openComponent tree.unchanged policy fd component rest.isEmpty q).1 :=
        openComponent_unchanged fd component rest.isEmpty p q
      generalize openComponent tree.unchanged policy fd component rest.isEmpty p = first at hOpen ⊢
      generalize openComponent tree.unchanged policy fd component rest.isEmpty q = second
        at hOpen ⊢
      obtain ⟨opened, p⟩ := first
      obtain ⟨opened, q⟩ := second
      obtain rfl : _ = opened := hOpen
      cases opened with
      | error resource => rfl
      | ok newFd =>
          have hRest : resolveRest tree policy canonicalRoot rejectBackslash components rest
              newFd p =
              resolveRest tree policy canonicalRoot rejectBackslash components rest newFd q := by
            unfold resolveRest
            rw [classifyOpened_unchanged canonicalRoot components rejectBackslash newFd p q,
              ih newFd p q]
          simp only [hRest]

theorem resolveRest_unchanged (components rest : List Str) (fd : ν) (p q : Process ν) :
    resolveRest tree policy canonicalRoot rejectBackslash components rest fd p =
      resolveRest tree policy canonicalRoot rejectBackslash components rest fd q := by
  unfold resolveRest
  rw [classifyOpened_unchanged canonicalRoot components rejectBackslash fd p q,
    resolveComponents_unchanged components rest fd p q]

/-- An admitted component that opens is passed. -/
theorem resolveComponents_of_open {components rest : List Str} {component : Str} {fd newFd : ν}
    {q : Process ν} (hDot : ¬(policy.dotfiles = .denied ∧ component.head? = some '.'))
    (hCheck : checkComponent component = .ok ())
    (hOpen : (openComponent tree.unchanged policy fd component rest.isEmpty q).1 = .ok newFd)
    (p r : Process ν) :
    (resolveComponents tree.unchanged canonicalRoot components policy rejectBackslash
        (component :: rest) fd p).1 =
      resolveRest tree policy canonicalRoot rejectBackslash components rest newFd r := by
  rw [openComponent_unchanged fd component rest.isEmpty q p] at hOpen
  rw [resolveComponents_cons_fst, if_neg hDot, hCheck]
  generalize openComponent tree.unchanged policy fd component rest.isEmpty p = opened at hOpen ⊢
  obtain ⟨opened, p⟩ := opened
  obtain rfl : opened = .ok newFd := hOpen
  exact resolveRest_unchanged components rest newFd p r

/-- A path that ends at a directory passed its first component. -/
theorem resolveComponents_eq_directory {components rest : List Str} {component : Str} {fd : ν}
    {p : Process ν} {d : ResolvedDirectory ν}
    (hDirectory : (resolveComponents tree.unchanged canonicalRoot components policy
      rejectBackslash (component :: rest) fd p).1 = .directory d) :
    ¬(policy.dotfiles = .denied ∧ component.head? = some '.') ∧
      checkComponent component = .ok () ∧
      ∃ newFd, (openComponent tree.unchanged policy fd component rest.isEmpty p).1 = .ok newFd ∧
        resolveRest tree policy canonicalRoot rejectBackslash components rest newFd p =
          .directory d := by
  rw [resolveComponents_cons_fst] at hDirectory
  by_cases hDot : policy.dotfiles = .denied ∧ component.head? = some '.'
  · rw [if_pos hDot] at hDirectory
    cases hDirectory
  · rw [if_neg hDot] at hDirectory
    cases hCheck : checkComponent component with
    | error rejection => simp [hCheck] at hDirectory
    | ok _ =>
        rw [hCheck] at hDirectory
        have hError : ∀ resource,
            (openComponent tree.unchanged policy fd component rest.isEmpty p).1 =
              .error resource → resource ≠ .directory d :=
          fun _ hOpen => openComponent_error_ne_directory d hOpen
        generalize openComponent tree.unchanged policy fd component rest.isEmpty p = opened
          at hDirectory hError ⊢
        obtain ⟨opened, q⟩ := opened
        cases opened with
        | error resource => exact absurd hDirectory (hError resource rfl)
        | ok newFd =>
            refine ⟨hDot, rfl, newFd, rfl, ?_⟩
            rw [resolveRest_unchanged components rest newFd p q]
            exact hDirectory

/-- What is classified as a directory is one, and keeps what it was found under. -/
theorem classifyOpened_eq_directory {components : List Str} {fd : ν} {p : Process ν}
    {d : ResolvedDirectory ν}
    (hClassify : (classifyOpened tree.unchanged canonicalRoot components rejectBackslash fd
      p).1 = .directory d) :
    tree.fileType fd = .directory ∧ d.dirFd = fd ∧ d.components = components ∧
      d.rejectBackslash = rejectBackslash := by
  simp only [classifyOpened, History.fstat, Tree.unchanged] at hClassify
  cases hType : tree.fileType fd with
  | directory =>
      simp only [hType] at hClassify
      obtain rfl := ResolvedResource.directory.inj hClassify
      exact ⟨rfl, rfl, rfl, rfl⟩
  | regular => simp [hType] at hClassify
  | symlink => simp [hType] at hClassify
  | other => simp [hType] at hClassify

/-- A path that leads to a directory leads on from there. By induction on the
path: only its last component is opened differently when another one follows. -/
theorem resolveComponents_append {components whole rest : List Str} {component child : Str}
    {fd : ν} {p : Process ν} {d : ResolvedDirectory ν}
    (hDirectory : (resolveComponents tree.unchanged canonicalRoot components policy
      rejectBackslash (component :: rest) fd p).1 = .directory d) (q r : Process ν) :
    (resolveComponents tree.unchanged canonicalRoot whole policy rejectBackslash
        (component :: (rest ++ [child])) fd q).1 =
      (resolveComponents tree.unchanged canonicalRoot whole policy rejectBackslash [child]
        d.dirFd r).1 ∧
      tree.fileType d.dirFd = .directory ∧ d.components = components ∧
      d.rejectBackslash = rejectBackslash := by
  induction rest generalizing component fd p with
  | nil =>
      obtain ⟨hDot, hCheck, newFd, hOpen, hRest⟩ := resolveComponents_eq_directory hDirectory
      obtain ⟨hType, rfl, hComponents, hBackslash⟩ := classifyOpened_eq_directory hRest
      have hInner := openComponent_inner p p hOpen hType
      exact ⟨resolveComponents_of_open hDot hCheck hInner q r, hType, hComponents, hBackslash⟩
  | cons next rest ih =>
      obtain ⟨hDot, hCheck, newFd, hOpen, hRest⟩ := resolveComponents_eq_directory hDirectory
      obtain ⟨hNext, hKept⟩ := ih hRest
      refine ⟨?_, hKept⟩
      have hEmpty : (next :: rest).isEmpty = (next :: (rest ++ [child])).isEmpty := rfl
      calc
        _ = resolveRest tree policy canonicalRoot rejectBackslash whole
              (next :: (rest ++ [child])) newFd q :=
            resolveComponents_of_open hDot hCheck (hEmpty ▸ hOpen) q q
        _ = _ := hNext

/-- A dotfile that the path policy admits is refused by the serving policy, by
either validator for that reason alone. -/
theorem validateChildComponentWithPolicy_dotfile {child : Str} {pathPolicy : PathPolicy}
    (hChild : ConfinedComponent pathPolicy child) (hDot : child.head? = some '.') :
    validateChildComponentWithPolicy child true pathPolicy.rejectBackslash =
      .error .dotfileDenied := by
  simp only [validateChildComponentWithPolicy, check_bind_eq_error, failIf_eq_error, failIf_eq_ok]
  have hControl : ¬(child.any fun c => asciiControl c.toNat) = true := by
    simpa using hChild.no_control
  have hBackslash : ¬(pathPolicy.rejectBackslash = true ∧ '\\' ∈ child) :=
    fun hBoth => hChild.no_backslash hBoth.1 hBoth.2
  have hEmpty : ¬child.isEmpty = true := by simpa using hChild.nonempty
  exact .inr ⟨hEmpty, .inr ⟨hChild.not_current, .inr ⟨hChild.not_parent, .inr ⟨hChild.no_slash,
    .inr ⟨hChild.no_nul, .inr ⟨hControl, .inr ⟨hBackslash, .inl ⟨⟨trivial, hDot⟩, trivial⟩⟩⟩⟩⟩⟩⟩⟩

/-- Under a serving policy that does not refuse it, an admitted component is an
admitted child. -/
theorem validateChildComponentWithPolicy_of_confined {child : Str} {pathPolicy : PathPolicy}
    (hChild : ConfinedComponent pathPolicy child)
    (hDot : ¬(policy.dotfiles = .denied ∧ child.head? = some '.')) :
    validateChildComponentWithPolicy child (policy.dotfiles = .denied)
      pathPolicy.rejectBackslash = .ok () := by
  refine validateChildComponentWithPolicy_eq_ok.mpr { hChild with no_dotfile := ?_ }
  intro hDenied hHead
  refine hDot ⟨?_, hHead⟩
  by_contra hServed
  simp [childPathPolicy, hServed] at hDenied

/-- The last component of a path and a child are opened alike. -/
theorem resolveComponents_singleton {components : List Str} {child : Str}
    {pathPolicy : PathPolicy} {fd : ν} (hChild : ConfinedComponent pathPolicy child)
    (p q : Process ν) :
    (resolveComponents tree.unchanged canonicalRoot (components ++ [child]) policy
        pathPolicy.rejectBackslash [child] fd p).1 =
      (resolveChildFd tree.unchanged fd components canonicalRoot child policy
        pathPolicy.rejectBackslash q).1 := by
  rw [resolveComponents_unchanged _ _ fd p q, resolveComponents_cons_fst]
  by_cases hDot : policy.dotfiles = .denied ∧ child.head? = some '.'
  · rw [if_pos hDot, resolveChildFd, decide_eq_true hDot.1,
      validateChildComponentWithPolicy_dotfile hChild hDot.2]
  · have hCheck : checkComponent child = .ok () :=
      checkComponent_eq_ok.mpr ⟨hChild.no_colon, hChild.not_reserved, hChild.no_trailing_dot,
        hChild.no_trailing_space⟩
    rw [if_neg hDot, hCheck, resolveChildFd,
      validateChildComponentWithPolicy_of_confined hChild hDot]
    dsimp only [List.isEmpty_nil]
    obtain ⟨opened, q⟩ := openComponent tree.unchanged policy fd child true q
    cases opened <;> rfl

/-- Resolving on from a directory is resolving the longer path. -/
theorem resolveFdRelative_append {rootFd : ν} {components : List Str} {child : Str}
    {pathPolicy : PathPolicy} {d : ResolvedDirectory ν} {p : Process ν}
    (hChild : ConfinedComponent pathPolicy child)
    (hDirectory : (resolveFdRelative tree.unchanged rootFd canonicalRoot components policy
      pathPolicy.rejectBackslash p).1 = .directory d) (q r : Process ν) :
    (resolveFdRelative tree.unchanged rootFd canonicalRoot (components ++ [child]) policy
        pathPolicy.rejectBackslash q).1 =
      (resolveChildFd tree.unchanged d.dirFd d.components canonicalRoot child policy
        pathPolicy.rejectBackslash r).1 ∧
      d.rejectBackslash = pathPolicy.rejectBackslash := by
  cases components with
  | nil =>
      obtain rfl := ResolvedResource.directory.inj hDirectory
      exact ⟨resolveComponents_singleton hChild q r, rfl⟩
  | cons component rest =>
      obtain ⟨hAppend, -, hComponents, hBackslash⟩ := resolveComponents_append hDirectory q r
      rw [hComponents, ← resolveComponents_singleton hChild r r]
      exact ⟨hAppend, hBackslash⟩

/-- Both validators accept the same single components. In a tree that nobody
rewrites, a child reached through its directory is what its whole path resolves
to: the same kind of resource, the same inode, the same components, and the same
reason when it is refused. -/
theorem stepwise_resolution_agrees :
    (∀ (child : Str) (dotfiles : DotfilePolicy) (rejectBackslash : Bool),
      validateComponents [child] { dotfiles, rejectBackslash } = .ok () ↔
        validateChildComponentWithPolicy child (dotfiles = .denied) rejectBackslash = .ok ()) ∧
    ∀ (ν : Type) (tree : Tree ν Attributes) (fallback : Fallback ν)
      (pinned : PinnedRoot tree.unchanged) (policy : StaticPolicy) (parent whole : ConfinedPath)
      (child : Str) (d : ResolvedDirectory ν) (p q r : Process ν),
      policy.symlinks = .denied →
      whole.pathPolicy = parent.pathPolicy →
      whole.components = parent.components ++ [child] →
      validateComponents whole.components whole.pathPolicy = .ok () →
      (RootGuard.resolve fallback pinned parent policy p).1 = .directory d →
      (RootGuard.resolve fallback pinned whole policy q).1 =
        (RootGuard.resolveChild fallback pinned d child policy r).1 := by
  constructor
  · intro child dotfiles rejectBackslash
    exact validateComponents_singleton_eq_ok child { dotfiles, rejectBackslash }
  · intro ν tree fallback pinned policy parent whole child d p q r hSymlinks hPolicy hComponents
      hAdmitted hDirectory
    have hChild : ConfinedComponent parent.pathPolicy child := by
      rw [hPolicy, hComponents, validateComponents_eq_ok] at hAdmitted
      exact hAdmitted child (List.mem_append_right _ (List.mem_singleton_self child))
    rw [RootGuard.resolve, if_pos hSymlinks] at hDirectory
    obtain ⟨hAppend, hBackslash⟩ := resolveFdRelative_append hChild hDirectory q r
    rw [RootGuard.resolve, if_pos hSymlinks, hComponents, hPolicy, hAppend, RootGuard.resolveChild,
      if_pos hSymlinks, hBackslash]
    -- `resolve_child` validates, and what it calls validates again.
    split
    · rename_i rejection hReject
      rw [resolveChildFd, hReject]
    · rfl

/-- A tree with the file `docs/a`. -/
def docsTree : Tree Nat Attributes where
  fileType inode := if inode < 2 then .directory else .regular
  entry dir name :=
    if dir = 0 ∧ name = utf8 "docs" then some 1
    else if dir = 1 ∧ name = utf8 "a" then some 2
    else none
  walk _ _ := none
  attributes _ :=
    { content := [], metadata := { len := 0, modified := none, len_le := Nat.zero_le _ } }
  linkErrno := .loop
  names dir :=
    match dir with
    | 0 => dotEntries ++ [utf8 "docs"]
    | 1 => dotEntries ++ [utf8 "a"]
    | _ => []
  names_nodup dir := by
    match dir with
    | 0 | 1 => decide
    | _ + 2 => exact List.nodup_nil
  names_single dir := by
    match dir with
    | 0 | 1 => decide
    | _ + 2 => exact fun _ hMem => absurd hMem List.not_mem_nil
  mem_names dir name hDir hName := by
    have hDots : name ∉ dotEntries := by
      simp [dotEntries, hName.not_current, hName.not_parent]
    match dir with
    | 0 => simp [hDots]
    | 1 => simp [hDots]
    | _ + 2 => simp at hDir

def docsRoot : PinnedRoot docsTree.unchanged where
  canonicalRoot := "/srv"
  rootFd := 0
  is_directory := rfl

theorem stepwise_resolution_agrees_docs :
    (RootGuard.resolve (fun _ _ _ p => (.notFound, p)) docsRoot
        { decoded := "/docs/a", components := ["docs", "a"], pathPolicy := {} } {} ⟨7, []⟩).1 =
      (RootGuard.resolveChild (fun _ _ _ p => (.notFound, p)) docsRoot
        { dirFd := 1, canonicalPath := "/srv/docs", components := ["docs"]
          rejectBackslash := true } "a" {} ⟨3, []⟩).1 :=
  stepwise_resolution_agrees.2 Nat docsTree _ docsRoot {}
    { decoded := "/docs", components := ["docs"], pathPolicy := {} } _ "a" _ ⟨0, []⟩ ⟨7, []⟩
    ⟨3, []⟩ rfl rfl rfl (by decide +kernel) rfl

end Eggserve.Static
