import SimVision.Api.CommandHandler
import SimVision.Foundation.ByteSearch

/-! # Routing of request paths

The command is what follows the first slash of a stripped path. That is the last
segment of the path as long as there is no other slash behind it.
-/

namespace SimVision

open Foundation

/-- A request path without its leading slash and `api/`. -/
def strippedPath (path : Bytes) : Bytes :=
  let p := if path.head? = some 47 then path.drop 1 else path
  if (lit "api/").isPrefixOf p then p.drop 4 else p

/-- The part of a request path that names the command. -/
def commandSegment (path : Bytes) : Bytes :=
  match find (strippedPath path) (lit "/") 0 with
  | some slash => (strippedPath path).drop (slash + 1)
  | none => strippedPath path

/-- The command comes from its segment of the path, or from the body when that
is empty. -/
theorem CommandHandler.normalizeCommand_eq (path : Bytes) (body : Json) :
    normalizeCommand path body =
      if resolveAlias (toLower (commandSegment path)) = [] then
        match body.lookup (lit "command") with
        | some (.string s) => resolveAlias (toLower s)
        | _ => []
      else resolveAlias (toLower (commandSegment path)) := by
  have hunfold : normalizeCommand path body =
      let cmd := if strippedPath path = [] then []
        else
          match find (strippedPath path) (lit "/") 0 with
          | some slash => resolveAlias (toLower ((strippedPath path).drop (slash + 1)))
          | none => resolveAlias (toLower (strippedPath path))
      if cmd = [] then
        match body.lookup (lit "command") with
        | some (.string s) => resolveAlias (toLower s)
        | _ => cmd
      else cmd := rfl
  rw [hunfold]
  unfold commandSegment
  generalize strippedPath path = p
  by_cases hp : p = []
  · subst hp
    rfl
  rw [if_neg hp]
  cases find p (lit "/") 0 with
  | none =>
      dsimp only
      split
      next hempty => rw [hempty]
      next => rfl
  | some slash =>
      dsimp only
      split
      next hempty => rw [hempty]
      next => rfl

/-! ## Segments of a path -/

/-- The last segment of a path that is not empty. -/
def lastSegment (path : Bytes) : Option Bytes :=
  ((path.splitOn 47).filter fun segment => segment ≠ []).getLast?

variable {path s : Bytes}

theorem slash_notMem_of_splitOn {segment : Bytes} (hsegment : segment ∈ path.splitOn 47) :
    47 ∉ segment := by
  induction path generalizing segment with
  | nil =>
      obtain rfl := List.mem_singleton.mp hsegment
      exact List.not_mem_nil
  | cons c rest ih =>
      rw [List.splitOn_cons_eq_if_modifyHead] at hsegment
      split at hsegment
      next =>
        rcases List.mem_cons.mp hsegment with rfl | hrest
        · exact List.not_mem_nil
        · exact ih hrest
      next hc =>
        cases hsplit : rest.splitOn 47 with
        | nil => exact absurd hsplit (List.splitOn_ne_nil 47 rest)
        | cons first others =>
            rw [hsplit] at hsegment ih
            rcases List.mem_cons.mp hsegment with rfl | hrest
            · have hfirst := ih List.mem_cons_self
              rw [List.mem_cons, not_or]
              exact ⟨fun heq => hc (by rw [← heq]; rfl), hfirst⟩
            · exact ih (List.mem_cons_of_mem _ hrest)

/-- The last segment is not empty and has no slash. -/
theorem lastSegment_spec (hlast : lastSegment path = some s) : s ≠ [] ∧ 47 ∉ s := by
  obtain ⟨hmem, hsome⟩ := List.mem_filter.mp (List.mem_of_getLast? hlast)
  exact ⟨of_decide_eq_true hsome, slash_notMem_of_splitOn hmem⟩

theorem lastSegment_of_notMem (hsome : s ≠ []) (hslash : 47 ∉ s) : lastSegment s = some s := by
  rw [lastSegment, List.splitOn_eq_singleton hslash, List.filter_singleton, decide_eq_true hsome]
  rfl

/-- A segment at the end is the last one, whatever comes before its slash. -/
theorem lastSegment_append (before : Bytes) (hsome : s ≠ []) (hslash : 47 ∉ s) :
    lastSegment (before ++ 47 :: s) = some s := by
  rw [lastSegment, List.splitOn_append_cons_self, List.splitOn_eq_singleton hslash,
    List.filter_append, List.filter_singleton, decide_eq_true hsome, cond_true,
    List.getLast?_concat]

/-! ## Slashes of a command -/

namespace CommandHandler

theorem slash_mem_resolveAlias {cmd : Bytes} : 47 ∈ resolveAlias cmd ↔ 47 ∈ cmd := by
  have haliases : ∀ entry ∈ aliasMap, 47 ∉ entry.1 ∧ 47 ∉ entry.2 := by decide
  unfold resolveAlias
  split
  next entry hfind =>
    obtain ⟨halias, hcommand⟩ := haliases entry (List.mem_of_find?_eq_some hfind)
    have hcmd : entry.1 = cmd := by simpa using List.find?_some hfind
    exact iff_of_false hcommand (hcmd ▸ halias)
  next => rfl

theorem resolveAlias_ne_nil {cmd : Bytes} (hsome : cmd ≠ []) : resolveAlias cmd ≠ [] := by
  have haliases : ∀ entry ∈ aliasMap, entry.2 ≠ [] := by decide
  unfold resolveAlias
  split
  next entry hfind => exact haliases entry (List.mem_of_find?_eq_some hfind)
  next => exact hsome

end CommandHandler

/-! ## When a path names its command -/

/-- Without a slash the stripped path is the command. -/
theorem commandSegment_of_notMem (hslash : 47 ∉ strippedPath path) :
    commandSegment path = strippedPath path := by
  have hslashLit : lit "/" = [47] := by decide
  rw [commandSegment, hslashLit, find_zero, findFirst_byte, if_neg hslash]

/-- The command is what follows the first slash of the stripped path. -/
theorem commandSegment_of_append {first rest : Bytes}
    (hstripped : strippedPath path = first ++ 47 :: rest)
    (hfirst : 47 ∉ first) : commandSegment path = rest := by
  have hslashLit : lit "/" = [47] := by decide
  have hfound : findFirst [47] (first ++ 47 :: rest) = some first.length := by
    rw [findFirst_append hfirst]
    simp [findFirst, List.isPrefixOf]
  rw [commandSegment, hslashLit, find_zero, hstripped, hfound]
  dsimp only
  rw [← List.drop_drop, List.drop_left]
  rfl

/-- What is stripped from a path ends at a slash. -/
theorem strippedPath_suffix (path : Bytes) :
    strippedPath path = path ∨ ∃ before, path = before ++ 47 :: strippedPath path := by
  have hprefix : ∀ p : Bytes, (lit "api/").isPrefixOf p = true →
      p = lit "api" ++ 47 :: p.drop 4 := by
    intro p hp
    obtain ⟨rest, rfl⟩ := List.isPrefixOf_iff_prefix.mp hp
    rfl
  unfold strippedPath
  cases path with
  | nil => exact .inl rfl
  | cons c rest =>
      rw [List.head?_cons]
      by_cases hc : c = 47
      · subst hc
        rw [if_pos rfl, List.drop_one, List.tail_cons]
        right
        dsimp only
        split
        next hp => exact ⟨47 :: lit "api", congrArg (List.cons 47) ( hprefix rest hp)⟩
        next => exact ⟨[], rfl⟩
      · rw [if_neg fun heq => hc (Option.some.inj heq)]
        dsimp only
        split
        next hp => exact .inr ⟨lit "api", hprefix _ hp⟩
        next => exact .inl rfl

/-- What stands in front of the command in a path ends at a slash. -/
theorem commandSegment_suffix (path : Bytes) :
    commandSegment path = path ∨ ∃ before, path = before ++ 47 :: commandSegment path := by
  by_cases hslash : 47 ∈ strippedPath path
  · obtain ⟨first, rest, hstripped, hfirst⟩ := List.eq_append_cons_of_mem hslash
    rw [commandSegment_of_append hstripped hfirst]
    right
    rcases strippedPath_suffix path with hpath | ⟨before, hpath⟩
    · exact ⟨first, hpath.symm.trans hstripped⟩
    · exact ⟨before ++ 47 :: first, by rw [hpath, hstripped]; simp⟩
  · rw [commandSegment_of_notMem hslash]
    exact strippedPath_suffix path

/-- Stripped of one slash and one `api/`, the path is the segment alone, or has one
slash-free segment in front of it. -/
def NamesCommand (path s : Bytes) : Prop :=
  strippedPath path = s ∨ ∃ first, 47 ∉ first ∧ strippedPath path = first ++ 47 :: s

theorem namesCommand_iff (hslash : 47 ∉ s) : NamesCommand path s ↔ commandSegment path = s := by
  constructor
  · rintro (hstripped | ⟨first, hfirst, hstripped⟩)
    · rw [commandSegment_of_notMem (hstripped ▸ hslash), hstripped]
    · exact commandSegment_of_append hstripped hfirst
  · rintro rfl
    by_cases hmem : 47 ∈ strippedPath path
    · obtain ⟨first, rest, hstripped, hfirst⟩ := List.eq_append_cons_of_mem hmem
      refine .inr ⟨first, hfirst, ?_⟩
      rw [commandSegment_of_append hstripped hfirst, hstripped]
    · exact .inl (commandSegment_of_notMem hmem).symm

/-- A slash-free command is the last segment of its path. -/
theorem lastSegment_commandSegment (hsome : commandSegment path ≠ [])
    (hslash : 47 ∉ commandSegment path) :
    lastSegment path = some (commandSegment path) := by
  rcases commandSegment_suffix path with hpath | ⟨before, hpath⟩
  · have hwhole := lastSegment_of_notMem hsome hslash
    rwa [hpath] at hwhole ⊢
  · have hlast := lastSegment_append before hsome hslash
    rwa [← hpath] at hlast

/-- The body that names a command. -/
def commandBody (s : Bytes) : Json := Json.ofAssignments [(lit "command", .string s)]

/-- The path is routed by its last segment, whatever the body is, and like a body
that names the segment. -/
def RoutedBySegment (path s : Bytes) : Prop :=
  ∀ body : Json,
    CommandHandler.normalizeCommand path body = CommandHandler.resolveAlias (toLower s) ∧
      CommandHandler.normalizeCommand path body =
        CommandHandler.normalizeCommand (lit "/") (commandBody s)

/-- The body form is routed by its text, if that is not empty. -/
theorem CommandHandler.normalizeCommand_body (s : Bytes) :
    normalizeCommand (lit "/") (commandBody s) = resolveAlias (toLower s) := by
  have hsegment : resolveAlias (toLower (commandSegment (lit "/"))) = [] := by decide
  rw [normalizeCommand_eq, if_pos hsegment]
  rfl

/-- A path is routed by its last segment if and only if, stripped of one slash and
one `api/`, it has at most one slash, with the segment behind it. -/
theorem routedBySegment_iff (hlast : lastSegment path = some s) :
    RoutedBySegment path s ↔ NamesCommand path s := by
  obtain ⟨hsome, hslash⟩ := lastSegment_spec hlast
  have hlower : ∀ {segment : Bytes}, segment ≠ [] →
      CommandHandler.resolveAlias (toLower segment) ≠ [] := by
    intro segment hsegment
    apply CommandHandler.resolveAlias_ne_nil
    rwa [toLower, Ne, List.map_eq_nil_iff]
  rw [namesCommand_iff hslash]
  constructor
  · intro hrouted
    have hnull := (hrouted .null).1
    rw [CommandHandler.normalizeCommand_eq] at hnull
    split at hnull
    next => exact absurd hnull.symm (hlower hsome)
    next hcommand =>
      -- a slash in the command would show in its name, which has none
      have hfree : 47 ∉ commandSegment path := by
        rw [← mem_toLower_iff (by decide), ← CommandHandler.slash_mem_resolveAlias, hnull,
          CommandHandler.slash_mem_resolveAlias, mem_toLower_iff (by decide)]
        exact hslash
      have hsegment : commandSegment path ≠ [] := by
        intro hempty
        rw [hempty] at hcommand
        exact hcommand rfl
      have hcommandLast := lastSegment_commandSegment hsegment hfree
      exact Option.some.inj (hcommandLast.symm.trans hlast)
  · intro hcommand body
    have hpath : CommandHandler.normalizeCommand path body =
        CommandHandler.resolveAlias (toLower s) := by
      rw [CommandHandler.normalizeCommand_eq, hcommand, if_neg (hlower hsome)]
    exact ⟨hpath, hpath.trans (CommandHandler.normalizeCommand_body s).symm⟩

theorem apiPath_routedBySegment :
    RoutedBySegment (lit "/api/camera/GetParameter") (lit "GetParameter") :=
  (routedBySegment_iff (by decide)).mpr (.inr ⟨lit "camera", by decide, by decide⟩)

/-- A path of three segments is routed by the last two. -/
theorem deepPath_misrouted :
    ¬ ∀ path s : Bytes, lastSegment path = some s → RoutedBySegment path s := by
  intro hclaim
  have hrouted := (hclaim (lit "/v1/camera/connect") (lit "connect") (by decide) .null).1
  exact absurd hrouted (by decide)

end SimVision
