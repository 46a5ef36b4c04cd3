import AwsMock.Ftp.Session

/-! # Confinement of FTP sessions

A relative path is cleaned before the root of the user is put in front of it, an absolute
one only afterwards. So the steps up of an absolute path that the root of the server would
lose climb out of the user's root instead.
-/

namespace AwsMock.Ftp

open Foundation.PathStack

def World.HasCleanRoots (world : World) : Prop :=
  ∀ username password user,
    world.database.getUser username password = some user → IsClean user.localRootPath

namespace Session

section Handlers

variable {world : World} {session : Session}

/-- What a handler may do: its local paths are made of FTP paths, it goes to directories
that a parameter stands for, and it logs nobody in but users of the database. -/
structure Keeps (world : World) (session : Session) (outcome : Outcome) : Prop where
  uses : ∀ use ∈ outcome.uses, ∃ user, session.loggedInUser = some user ∧
    use.localPath = session.toLocalPath user use.path
  directory : outcome.session.ftpWorkingDirectory = session.ftpWorkingDirectory ∨
    outcome.session.ftpWorkingDirectory = ascii "/" ∨
    ∃ param, outcome.session.ftpWorkingDirectory = session.newWorkingDirectory param
  user : outcome.session.loggedInUser = none ∨ outcome.session.loggedInUser = session.loggedInUser ∨
    ∃ username password, outcome.session.loggedInUser = world.database.getUser username password

theorem keeps_sendMessage (message : FtpMessage) :
    Keeps world session (session.sendMessage message) :=
  ⟨fun _ huse => (List.not_mem_nil huse).elim, .inl rfl, .inr (.inl rfl)⟩

theorem keeps_sendFtpMessage (code : FtpReplyCode) (message : String) :
    Keeps world session (session.sendFtpMessage code message) :=
  keeps_sendMessage ⟨code, ascii message⟩

theorem keeps_unless {refused : Prop} [Decidable refused] {code : FtpReplyCode}
    {message : String} {outcome : Outcome} (houtcome : Keeps world session outcome) :
    Keeps world session (if refused then session.sendFtpMessage code message else outcome) := by
  split
  · exact keeps_sendFtpMessage _ _
  · exact houtcome

theorem keeps_using {outcome : Outcome} {uses : List Use} (houtcome : Keeps world session outcome)
    (huses : ∀ use ∈ uses, ∃ user, session.loggedInUser = some user ∧
      use.localPath = session.toLocalPath user use.path) :
    Keeps world session (outcome.using uses) := by
  refine ⟨?_, houtcome.directory, houtcome.user⟩
  intro use huse
  rcases List.mem_append.mp huse with hmem | hmem
  · exact huses use hmem
  · exact houtcome.uses use hmem

theorem keeps_requireUser {continuation : FtpUser → Outcome}
    (hcontinuation : ∀ user, session.loggedInUser = some user →
      Keeps world session (continuation user)) :
    Keeps world session (session.requireUser continuation) := by
  unfold requireUser
  split
  · exact keeps_sendFtpMessage _ _
  · next user huser => exact hcontinuation user huser

theorem keeps_using_path {outcome : Outcome} {user : FtpUser}
    (huser : session.loggedInUser = some user) (houtcome : Keeps world session outcome) (path : Bytes) :
    Keeps world session (outcome.using [session.use user path]) := by
  apply keeps_using houtcome
  intro use huse
  rw [List.mem_singleton.mp huse]
  exact ⟨user, huser, rfl⟩

theorem uses_checkIfPathIsRenamable (path : Bytes) :
    ∀ use ∈ (session.checkIfPathIsRenamable world path).2, ∃ user,
      session.loggedInUser = some user ∧ use.localPath = session.toLocalPath user use.path := by
  intro use huse
  unfold checkIfPathIsRenamable at huse
  split at huse
  · cases huse
  · next user huser =>
    split at huse
    · cases huse
    · rw [List.mem_singleton.mp huse]
      exact ⟨user, huser, rfl⟩

variable (param : Bytes)

theorem keeps_executeCWD (message : FtpMessage) :
    Keeps world session (((session.executeCWD world param).1.sendMessage message).using
      (session.executeCWD world param).2.2) := by
  unfold executeCWD
  split
  · exact keeps_using (keeps_sendMessage _) fun _ huse => (List.not_mem_nil huse).elim
  · next user huser =>
    split
    · exact keeps_using (keeps_sendMessage _) fun _ huse => (List.not_mem_nil huse).elim
    · split
      · exact keeps_using (keeps_sendMessage _) fun _ huse => (List.not_mem_nil huse).elim
      · dsimp only
        split
        · exact keeps_using_path huser (keeps_sendMessage _) _
        · split
          · exact keeps_using_path huser (keeps_sendMessage _) _
          · split
            · exact keeps_using_path huser (keeps_sendMessage _) _
            · apply keeps_using_path huser
              exact ⟨fun _ huse => (List.not_mem_nil huse).elim, .inr (.inr ⟨param, rfl⟩),
                .inr (.inl rfl)⟩

theorem keeps_handleFtpCommandUSER :
    Keeps world session (session.handleFtpCommandUSER param) := by
  unfold handleFtpCommandUSER
  split
  all_goals exact ⟨fun _ huse => (List.not_mem_nil huse).elim, .inr (.inl rfl), .inl rfl⟩

theorem keeps_handleFtpCommandPASS :
    Keeps world session (session.handleFtpCommandPASS world param) := by
  unfold handleFtpCommandPASS
  split
  · exact keeps_sendFtpMessage _ _
  · split
    · exact keeps_sendFtpMessage _ _
    · next user huser =>
      exact ⟨fun _ huse => (List.not_mem_nil huse).elim, .inl rfl,
        .inr (.inr ⟨session.usernameForLogin, param, huser.symm⟩)⟩

theorem keeps_handleFtpCommandCDUP : Keeps world session (session.handleFtpCommandCDUP world) := by
  refine keeps_requireUser fun user huser => ?_
  split
  · exact keeps_sendFtpMessage _ _
  · split
    · dsimp only
      split
      · exact keeps_executeCWD _ _
      · exact keeps_executeCWD _ _
    · exact keeps_sendFtpMessage _ _

theorem keeps_openDataAcceptor (command : Bytes) :
    Keeps world session (session.openDataAcceptor world command) :=
  keeps_requireUser fun _ _ =>
    ⟨fun _ huse => (List.not_mem_nil huse).elim, .inl rfl, .inr (.inl rfl)⟩

theorem keeps_handleFtpCommandTYPE :
    Keeps world session (session.handleFtpCommandTYPE param) := by
  refine keeps_requireUser fun user huser => ?_
  split
  · exact ⟨fun _ huse => (List.not_mem_nil huse).elim, .inl rfl, .inr (.inl rfl)⟩
  · split
    all_goals exact ⟨fun _ huse => (List.not_mem_nil huse).elim, .inl rfl, .inr (.inl rfl)⟩

theorem keeps_handleFtpCommandRETR :
    Keeps world session (session.handleFtpCommandRETR world param) := by
  refine keeps_requireUser fun user huser => keeps_unless (keeps_unless ?_)
  apply keeps_using_path huser
  refine keeps_unless ?_
  exact keeps_sendFtpMessage _ _

theorem keeps_handleFtpCommandSIZE :
    Keeps world session (session.handleFtpCommandSIZE world param) := by
  refine keeps_requireUser fun user huser => keeps_unless ?_
  apply keeps_using_path huser
  refine keeps_unless ?_
  split <;> exact keeps_sendFtpMessage _ _

theorem keeps_handleFtpCommandSTOR :
    Keeps world session (session.handleFtpCommandSTOR world param) := by
  refine keeps_requireUser fun user huser => keeps_unless (keeps_unless ?_)
  apply keeps_using_path huser
  refine keeps_unless (keeps_unless (keeps_unless ?_))
  exact keeps_sendFtpMessage _ _

theorem keeps_handleFtpCommandAPPE :
    Keeps world session (session.handleFtpCommandAPPE world param) := by
  refine keeps_requireUser fun user huser => keeps_unless (keeps_unless ?_)
  apply keeps_using_path huser
  refine keeps_unless (keeps_unless ?_)
  exact keeps_sendFtpMessage _ _

theorem keeps_handleFtpCommandRNFR :
    Keeps world session (session.handleFtpCommandRNFR world param) := by
  have huses := @uses_checkIfPathIsRenamable world { session with renameFromPath := [] } param
  unfold handleFtpCommandRNFR
  dsimp only
  split
  all_goals exact ⟨fun use huse =>
    huses use ((List.mem_append.mp huse).resolve_right List.not_mem_nil), .inl rfl, .inr (.inl rfl)⟩

theorem keeps_handleFtpCommandRNTO :
    Keeps world session (session.handleFtpCommandRNTO world param) := by
  have huses := @uses_checkIfPathIsRenamable world session session.renameFromPath
  refine keeps_requireUser fun user huser => ?_
  split
  · exact keeps_sendFtpMessage _ _
  · split
    · exact keeps_sendFtpMessage _ _
    · dsimp only
      split
      · apply keeps_using
        · split
          · exact keeps_sendFtpMessage _ _
          · split <;> exact keeps_sendFtpMessage _ _
        · intro use huse
          rcases List.mem_append.mp huse with hmem | hmem
          · exact huses use hmem
          · rcases List.mem_pair.mp hmem with rfl | rfl
            · exact ⟨user, huser, rfl⟩
            · exact ⟨user, huser, rfl⟩
      · exact keeps_using (keeps_sendMessage _) huses

theorem keeps_handleFtpCommandDELE :
    Keeps world session (session.handleFtpCommandDELE world param) := by
  refine keeps_requireUser fun user huser => ?_
  apply keeps_using_path huser
  refine keeps_unless (keeps_unless (keeps_unless (keeps_unless ?_)))
  exact keeps_sendFtpMessage _ _

theorem keeps_handleFtpCommandRMD :
    Keeps world session (session.handleFtpCommandRMD world param) := by
  refine keeps_requireUser fun user huser => keeps_unless ?_
  apply keeps_using_path huser
  refine keeps_unless ?_
  exact keeps_sendFtpMessage _ _

theorem keeps_handleFtpCommandMKD :
    Keeps world session (session.handleFtpCommandMKD world param) := by
  refine keeps_requireUser fun user huser => ?_
  split
  · exact keeps_sendFtpMessage _ _
  · apply keeps_using_path huser
    split
    · exact keeps_sendMessage _
    · exact keeps_sendFtpMessage _ _

theorem keeps_handleFtpCommandPWD : Keeps world session session.handleFtpCommandPWD := by
  unfold handleFtpCommandPWD
  split
  · exact keeps_sendFtpMessage _ _
  · exact keeps_sendMessage _

theorem keeps_listDirectory (path : Bytes) (accepted : String) :
    Keeps world session (session.listDirectory world path accepted) := by
  refine keeps_requireUser fun user huser => ?_
  split
  · exact keeps_sendFtpMessage _ _
  · apply keeps_using_path huser
    split
    · split
      · split <;> exact keeps_sendFtpMessage _ _
      · exact keeps_sendFtpMessage _ _
    · exact keeps_sendFtpMessage _ _

theorem keeps_handleFtpCommandOPTS :
    Keeps world session (session.handleFtpCommandOPTS param) := by
  unfold handleFtpCommandOPTS
  split <;> exact keeps_sendFtpMessage _ _

theorem keeps_handler {entry : Bytes × (World → Session → Bytes → Outcome)}
    (hentry : entry ∈ commandMap) (param : Bytes) :
    Keeps world session (entry.2 world session param) := by
  simp only [commandMap, List.mem_cons, List.not_mem_nil, or_false] at hentry
  rcases hentry with rfl | rfl | rfl | rfl | rfl | rfl | rfl | rfl | rfl | rfl | rfl | rfl | rfl |
    rfl | rfl | rfl | rfl | rfl | rfl | rfl | rfl | rfl | rfl | rfl | rfl | rfl | rfl | rfl | rfl |
    rfl | rfl | rfl | rfl | rfl | rfl | rfl | rfl | rfl | rfl
  all_goals first
    | exact keeps_sendFtpMessage _ _
    | exact keeps_openDataAcceptor _
    | skip
  · exact keeps_handleFtpCommandUSER param
  · exact keeps_handleFtpCommandPASS param
  · exact keeps_executeCWD param _
  · exact keeps_handleFtpCommandCDUP
  · exact ⟨fun _ huse => (List.not_mem_nil huse).elim, .inl rfl, .inl rfl⟩
  · exact keeps_handleFtpCommandTYPE param
  · exact keeps_handleFtpCommandRETR param
  · exact keeps_handleFtpCommandSTOR param
  · exact keeps_handleFtpCommandAPPE param
  · exact keeps_handleFtpCommandRNFR param
  · exact keeps_handleFtpCommandRNTO param
  · exact keeps_handleFtpCommandDELE param
  · exact keeps_handleFtpCommandRMD param
  · exact keeps_handleFtpCommandMKD param
  · exact keeps_handleFtpCommandPWD
  · exact keeps_listDirectory _ _
  · exact keeps_listDirectory _ _
  · exact ⟨fun _ huse => (List.not_mem_nil huse).elim, .inl rfl, .inr (.inl rfl)⟩
  · exact keeps_handleFtpCommandOPTS param
  · exact keeps_handleFtpCommandSIZE param

theorem keeps_handleFtpCommand (command : Bytes) :
    Keeps world session (session.handleFtpCommand world command) := by
  unfold handleFtpCommand
  dsimp only
  split
  · next handler hhandler =>
    obtain ⟨front, back, hmap, -⟩ := List.lookup_eq_some_iff.mp hhandler
    have hentry : (((command.takeWhile (· ≠ 32)).map Bytes.upper), handler) ∈ commandMap := by
      rw [hmap]
      exact List.mem_append_right front List.mem_cons_self
    have hkeeps := @keeps_handler world session _ hentry ((command.dropWhile (· ≠ 32)).drop 1)
    exact ⟨hkeeps.uses, hkeeps.directory, hkeeps.user⟩
  · exact keeps_sendFtpMessage _ _

end Handlers

section Directories

variable {session : Session}

/-- The names from the root of the server that a path stands for. -/
def ftpNames (session : Session) (path : Bytes) : List Bytes :=
  resolve isSkipped parent true
    (if isAbsolute path then [] else components session.ftpWorkingDirectory) (segments path)

/-- How often a path climbs above the root of the server after the root of the user has been
put in front of it. A relative path has been cleaned by then. -/
def climbs (path : Bytes) : Nat :=
  if isAbsolute path then excess isSkipped parent 0 (segments path) else 0

theorem isFileName_of_isDirectory {path : Bytes} (hpath : IsDirectory path) :
    isAbsolute path = true ∧ ∀ name ∈ components path, IsFileName name := by
  obtain ⟨names, hnames, rfl⟩ := hpath
  refine ⟨rfl, fun name hname => ?_⟩
  exact isFileName_of_mem_resolve (fun _ hmem => (List.not_mem_nil hmem).elim)
    (fun _ hmem => notMem_of_mem_segments hmem) hname

theorem isFileName_of_mem_ftpNames (hsession : IsDirectory session.ftpWorkingDirectory)
    {path name : Bytes} (hname : name ∈ session.ftpNames path) : IsFileName name := by
  refine isFileName_of_mem_resolve ?_ (fun _ hmem => notMem_of_mem_segments hmem) hname
  intro name hmem
  split at hmem
  · exact (List.not_mem_nil hmem).elim
  · exact (isFileName_of_isDirectory hsession).2 name hmem

theorem isDirectory_join {names : List Bytes} (hnames : ∀ name ∈ names, IsFileName name) :
    IsDirectory (join true names) :=
  ⟨names, hnames, join_true names⟩

theorem newWorkingDirectory_eq (hsession : IsDirectory session.ftpWorkingDirectory)
    (path : Bytes) : session.newWorkingDirectory path = join true (session.ftpNames path) := by
  unfold newWorkingDirectory ftpNames
  split
  · next habsolute =>
    have hnonempty : path ≠ [] := by rintro rfl; cases habsolute
    rw [cleanPath, if_neg hnonempty, components, habsolute]
  · obtain ⟨habsolute, -⟩ := isFileName_of_isDirectory hsession
    have hnonempty : session.ftpWorkingDirectory ≠ [] := by
      intro hempty
      rw [hempty] at habsolute
      cases habsolute
    rw [cleanPath_append hnonempty, habsolute]

theorem isDirectory_step (hsession : IsDirectory session.ftpWorkingDirectory)
    (input : World × Bytes) : IsDirectory (session.step input).ftpWorkingDirectory := by
  unfold step
  split
  · exact hsession
  · rcases (@keeps_handleFtpCommand input.1 session input.2).directory with heq | heq | ⟨param, heq⟩
    · rw [heq]
      exact hsession
    · rw [heq]
      exact ⟨[], fun _ hname => (List.not_mem_nil hname).elim, rfl⟩
    · rw [heq, newWorkingDirectory_eq hsession]
      exact isDirectory_join fun name hname => isFileName_of_mem_ftpNames hsession hname

theorem isClean_step {input : World × Bytes} (hworld : input.1.HasCleanRoots)
    (hsession : ∀ user, session.loggedInUser = some user → IsClean user.localRootPath)
    {user : FtpUser} (huser : (session.step input).loggedInUser = some user) : IsClean user.localRootPath := by
  unfold step at huser
  split at huser
  · exact hsession user huser
  · rcases (@keeps_handleFtpCommand input.1 session input.2).user with
      heq | heq | ⟨username, password, heq⟩
    · rw [heq] at huser
      cases huser
    · exact hsession user (heq ▸ huser)
    · exact hworld username password user (heq ▸ huser)

theorem run_invariant (inputs : List (World × Bytes))
    (hworlds : ∀ input ∈ inputs, input.1.HasCleanRoots)
    (hdirectory : IsDirectory session.ftpWorkingDirectory)
    (hroot : ∀ user, session.loggedInUser = some user → IsClean user.localRootPath) :
    IsDirectory (session.run inputs).ftpWorkingDirectory ∧
      ∀ user, (session.run inputs).loggedInUser = some user → IsClean user.localRootPath := by
  induction inputs generalizing session with
  | nil => exact ⟨hdirectory, hroot⟩
  | cons input inputs ih =>
    rw [List.forall_mem_cons] at hworlds
    exact ih hworlds.2 (isDirectory_step hdirectory input)
      fun user huser => isClean_step hworlds.1 hroot huser

end Directories

section LocalPaths

variable {session : Session} {user : FtpUser}

section

variable (hsession : IsDirectory session.ftpWorkingDirectory)
include hsession

theorem toLocalPath_eq (hroot : IsClean user.localRootPath) (path : Bytes) :
    session.toLocalPath user path = join (isAbsolute user.localRootPath)
        ((climb parent (isAbsolute user.localRootPath))^[climbs path]
          (components user.localRootPath) ++ session.ftpNames path) := by
  rw [toLocalPath, cleanPath_append hroot.ne_nil, resolve_stack, toAbsoluteFtpPath]
  cases habsolute : isAbsolute path with
  | true => simp only [if_true, climbs, ftpNames, habsolute]
  | false =>
    have hnames : ∀ name ∈ session.ftpNames path, IsFileName name := fun name hname =>
      isFileName_of_mem_ftpNames hsession hname
    have hread := @filter_segments_join true (session.ftpNames path)
      fun name hname => (hnames name hname).1
    have hdirectory := newWorkingDirectory_eq hsession path
    rw [newWorkingDirectory, habsolute] at hdirectory
    simp only [Bool.false_eq_true, if_false] at hdirectory ⊢
    rw [hdirectory, ← excess_filter, ← resolve_filter, hread,
      excess_names fun name hname => isName_of_isFileName (hnames name hname),
      resolve_names fun name hname => isName_of_isFileName (hnames name hname)]
    simp only [climbs, habsolute, Bool.false_eq_true, if_false, List.nil_append]

theorem toLocalPath_eq_iff (hroot : IsClean user.localRootPath) (path : Bytes) :
    session.toLocalPath user path = join (isAbsolute user.localRootPath)
          (components user.localRootPath ++ session.ftpNames path) ↔
      climbs path = 0 ∨ user.localRootPath = ascii "/" := by
  have hslash : isAbsolute user.localRootPath = true ∧ components user.localRootPath = [] ↔
      user.localRootPath = ascii "/" := by
    constructor
    · rintro ⟨habsolute, hcomponents⟩
      have heq := hroot.eq_join
      rw [habsolute, hcomponents] at heq
      exact heq
    · intro heq
      rw [heq]
      exact ⟨rfl, rfl⟩
  rw [toLocalPath_eq hsession hroot, ← hslash, ← @iterate_climb_eq_iff _ _ parent]
  constructor
  · intro heq
    refine List.append_cancel_right (join_injective ?_ ?_ heq)
    · intro part hpart
      rcases List.mem_append.mp hpart with hmem | hmem
      · rcases mem_iterate_climb hmem with hmem | rfl
        · exact isComponent_of_mem_components hmem
        · exact isComponent_parent
      · exact (isFileName_of_mem_ftpNames hsession hmem).1
    · intro part hpart
      rcases List.mem_append.mp hpart with hmem | hmem
      · exact isComponent_of_mem_components hmem
      · exact (isFileName_of_mem_ftpNames hsession hmem).1
  · intro heq
    rw [heq]

theorem exists_relative (path : Bytes) :
    ∃ other, isAbsolute other = false ∧ session.ftpNames other = session.ftpNames path := by
  have hnames : ∀ name ∈ session.ftpNames path, IsFileName name := fun name hname =>
    isFileName_of_mem_ftpNames hsession hname
  obtain ⟨-, hdirectory⟩ := isFileName_of_isDirectory hsession
  let stack := components session.ftpWorkingDirectory
  let parts := List.replicate stack.length parent ++ session.ftpNames path
  have hparts : ∀ part ∈ parts, IsComponent part := by
    intro part hpart
    rcases List.mem_append.mp hpart with hmem | hmem
    · rw [List.eq_of_mem_replicate hmem]
      exact isComponent_parent
    · exact (hnames part hmem).1
  refine ⟨join false parts, isAbsolute_join hparts, ?_⟩
  have hread : session.ftpNames (join false parts) = resolve isSkipped parent true stack parts := by
    rw [ftpNames, isAbsolute_join hparts, ← resolve_filter, filter_segments_join hparts]
    rfl
  rw [hread, resolve_append_segments,
    resolve_replicate_up rfl fun name hname => isName_of_isFileName (hdirectory name hname),
    resolve_names fun name hname => isName_of_isFileName (hnames name hname), List.nil_append]

end

/-- What a session promises for a path in the hands of a user: the working directory is
reported as an absolute path in clean form, what is made of the path lies within the root,
and when the path is absolute the relative ones that stand for it lead to the same place. -/
structure IsConfined (session : Session) (user : FtpUser) (path : Bytes) : Prop where
  reported : ∃ directory, IsDirectory directory ∧ session.handleFtpCommandPWD.replies =
      [FtpMessage.str ⟨.pathnameCreated, createQuotedFtpPath directory⟩]
  within : ∀ world command, ∀ use ∈ (session.handleFtpCommand world command).uses,
    use.path = path → IsWithin user.localRootPath use.localPath
  agrees : isAbsolute path = true → ∀ other, isAbsolute other = false →
    session.newWorkingDirectory other = session.newWorkingDirectory path →
    session.toLocalPath user other = session.toLocalPath user path

/-- After every run of commands a path is confined just when it does not climb, or when the
user has the root of the file system. -/
theorem isConfined_iff (inputs : List (World × Bytes))
    (hworlds : ∀ input ∈ inputs, input.1.HasCleanRoots) {user : FtpUser}
    (huser : (run {} inputs).loggedInUser = some user) (path : Bytes) :
    IsConfined (run {} inputs) user path ↔ climbs path = 0 ∨ user.localRootPath = ascii "/" := by
  obtain ⟨hsession, hroots⟩ := @run_invariant {} inputs hworlds
    ⟨[], fun _ hname => (List.not_mem_nil hname).elim, rfl⟩ (fun _ hnone => nomatch hnone)
  have hroot := hroots user huser
  generalize run {} inputs = session at hsession huser
  constructor
  · intro hconfined
    rw [← toLocalPath_eq_iff hsession hroot]
    cases hpath : isAbsolute path with
    | false =>
      rw [toLocalPath_eq hsession hroot, climbs, hpath]
      rfl
    | true =>
      obtain ⟨other, hother, hnames⟩ := exists_relative hsession path
      have hdenoted : session.newWorkingDirectory other = session.newWorkingDirectory path := by
        rw [newWorkingDirectory_eq hsession, newWorkingDirectory_eq hsession, hnames]
      rw [← hconfined.agrees hpath other hother hdenoted, toLocalPath_eq hsession hroot, hnames,
        climbs, hother]
      rfl
  · intro hclimbs
    have hlocal := (toLocalPath_eq_iff hsession hroot path).mpr hclimbs
    refine ⟨⟨session.ftpWorkingDirectory, hsession, ?_⟩, ?_, ?_⟩
    · rw [handleFtpCommandPWD, huser]
      rfl
    · intro world command use huse hpath
      obtain ⟨owner, howner, heq⟩ := (keeps_handleFtpCommand command).uses use huse
      obtain rfl : owner = user := Option.some_inj.mp (howner.symm.trans huser)
      rw [heq, hpath, hlocal]
      exact hroot.isWithin fun name hname => isFileName_of_mem_ftpNames hsession hname
    · intro habsolute other hother hdenoted
      have hnames : session.ftpNames other = session.ftpNames path := by
        rw [newWorkingDirectory_eq hsession, newWorkingDirectory_eq hsession] at hdenoted
        exact join_injective (fun name hname => (isFileName_of_mem_ftpNames hsession hname).1)
          (fun name hname => (isFileName_of_mem_ftpNames hsession hname).1) hdenoted
      rw [hlocal, toLocalPath_eq hsession hroot, hnames, climbs, hother]
      rfl

end LocalPaths

section Escape

def bobsWorld : World where
  database :=
    { getUserByUserName := fun username =>
        if username = ascii "bob" then some ⟨ascii "bob", ascii "secret"⟩ else none }

def bob : FtpUser := ⟨ascii "bob", ascii "secret", ascii "bob", fun _ => true⟩

def login : List (World × Bytes) :=
  [(bobsWorld, ascii "USER bob"), (bobsWorld, ascii "PASS secret")]

theorem hasCleanRoots_bobsWorld : bobsWorld.HasCleanRoots := by
  intro username password user huser
  unfold UserDatabase.getUser at huser
  split at huser
  · cases huser
  · dsimp only [bobsWorld] at huser
    split at huser
    · cases huser
    · next found hfound =>
      split at hfound
      · obtain rfl := Option.some_inj.mp hfound
        split at huser
        · obtain rfl := Option.some_inj.mp huser
          rfl
        · cases huser
      · cases hfound

theorem loggedInUser_login : (run {} login).loggedInUser = some bob := by
  rfl

/-- A name in the working directory is in the home of the user. -/
theorem isConfined_notes : IsConfined (run {} login) bob (ascii "/a/../notes") :=
  (isConfined_iff login (by
      intro input hinput
      rcases List.mem_pair.mp hinput with rfl | rfl <;> exact hasCleanRoots_bobsWorld)
    loggedInUser_login _).mpr (.inl (by decide))

/-- A user that leaves the root of the server reaches the file of another one. -/
theorem not_isConfined_alice :
    ¬ ∀ (inputs : List (World × Bytes)) (user : FtpUser) (path : Bytes),
      (∀ input ∈ inputs, input.1.HasCleanRoots) →
      (run {} inputs).loggedInUser = some user → IsConfined (run {} inputs) user path := by
  intro hall
  have hconfined := hall login bob (ascii "/../alice/secret") (by
      intro input hinput
      rcases List.mem_pair.mp hinput with rfl | rfl <;> exact hasCleanRoots_bobsWorld)
    loggedInUser_login
  have huses : ((run {} login).handleFtpCommand bobsWorld (ascii "DELE /../alice/secret")).uses =
      [⟨ascii "/../alice/secret", ascii "alice/secret"⟩] := by
    decide
  have hwithin := hconfined.within bobsWorld (ascii "DELE /../alice/secret")
    ⟨ascii "/../alice/secret", ascii "alice/secret"⟩ (by rw [huses]; exact List.mem_cons_self) rfl
  rcases hwithin with heq | ⟨names, -, -, heq⟩
  · revert heq
    decide
  · have hfirst := congrArg List.head? heq
    change (some 97 : Option UInt8) = some 98 at hfirst
    exact absurd hfirst (by decide)

end Escape

/-! ## Directories that are entered one after the other -/

/-- Entering directories one by one reaches the file that their path names at once. -/
theorem toLocalPath_foldl_newWorkingDirectory (user : FtpUser) (session : Session)
    (params : List Bytes) {path : Bytes} (hdirectory : session.ftpWorkingDirectory ≠ [])
    (hparams : ∀ param ∈ params, param ≠ [] ∧ isAbsolute param = false)
    (hpath : isAbsolute path = false) :
    (params.foldl (fun session param =>
        { session with ftpWorkingDirectory := session.newWorkingDirectory param })
      session).toLocalPath user path =
        session.toLocalPath user
          (params.foldr (fun param path => param ++ ascii "/" ++ path) path) := by
  induction params generalizing session with
  | nil => rfl
  | cons param params ih =>
    rw [List.forall_mem_cons] at hparams
    obtain ⟨⟨hparam, hrelative⟩, hrest⟩ := hparams
    have hlater : isAbsolute (params.foldr (fun param path => param ++ ascii "/" ++ path) path) =
        false := by
      cases params with
      | nil => exact hpath
      | cons param params =>
        obtain ⟨hparam, hrelative⟩ := hrest param List.mem_cons_self
        rw [List.foldr_cons, List.append_assoc, isAbsolute_append hparam, hrelative]
    have hentered : session.newWorkingDirectory param =
        cleanPath (session.ftpWorkingDirectory ++ ascii "/" ++ param) := by
      rw [newWorkingDirectory, hrelative, if_neg Bool.false_ne_true]
    rw [List.foldl_cons, ih _ (hentered ▸ cleanPath_ne_nil _) hrest, List.foldr_cons]
    generalize params.foldr (fun param path => param ++ ascii "/" ++ path) path = later at hlater
    have hwhole : isAbsolute (param ++ ascii "/" ++ later) = false := by
      rw [List.append_assoc, isAbsolute_append hparam, hrelative]
    simp only [toLocalPath, toAbsoluteFtpPath, hlater, hwhole, hentered,
      Bool.false_eq_true, if_false]
    rw [cleanPath_cleanPath_append (by simp [hdirectory])]
    simp only [List.append_assoc]

theorem toLocalPath_foldl_newWorkingDirectory_notes :
    ([ascii "a", ascii "../b"].foldl (fun session param =>
        { session with ftpWorkingDirectory := session.newWorkingDirectory param })
      ({} : Session)).toLocalPath bob (ascii "notes") =
        toLocalPath {} bob (ascii "a/../b/notes") :=
  toLocalPath_foldl_newWorkingDirectory bob {} [ascii "a", ascii "../b"] (by decide) (by decide)
    (by decide)

end Session

end AwsMock.Ftp
