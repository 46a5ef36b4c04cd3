import AwsMock.Ftp.Actions

/-! # Authorisation of FTP sessions

Who is logged in, and what may be renamed, can be read off the commands so far.
-/

namespace AwsMock.Ftp

def LastRecognized (inputs : List (World × Bytes)) (name param : Bytes) : Prop :=
  ∃ before input unrecognized, inputs = before ++ input :: unrecognized ∧
    ftpCommand input.2 = name ∧ parameters input.2 = param ∧
    ∀ other ∈ unrecognized, ¬ IsRecognized other.2

/-- There was a `PASS` right after a `USER`, with a name and a password that the database
took for those of the user, and neither `USER` nor `QUIT` came after it. -/
def IsLoggedIn (inputs : List (World × Bytes)) (user : FtpUser) : Prop :=
  ∃ before pass after username, inputs = before ++ pass :: after ∧
    LastRecognized before (ascii "USER") username ∧
    ftpCommand pass.2 = ascii "PASS" ∧
    pass.1.database.getUser username (parameters pass.2) = some user ∧
    (∀ input ∈ before, ftpCommand input.2 ≠ ascii "QUIT") ∧
    ∀ input ∈ after, ftpCommand input.2 ≠ ascii "USER" ∧ ftpCommand input.2 ≠ ascii "QUIT"

namespace Session

section Login

variable {world : World} {session : Session}

/-- A handler that leaves alone who is logged in and whose name was given. -/
structure KeepsLogin (session : Session) (outcome : Outcome) : Prop where
  user : outcome.session.loggedInUser = session.loggedInUser
  name : outcome.session.usernameForLogin = session.usernameForLogin

theorem keepsLogin_sendMessage (message : FtpMessage) :
    KeepsLogin session (session.sendMessage message) :=
  ⟨rfl, rfl⟩

theorem keepsLogin_sendFtpMessage (code : FtpReplyCode) (message : String) :
    KeepsLogin session (session.sendFtpMessage code message) :=
  ⟨rfl, rfl⟩

theorem KeepsLogin.using {outcome : Outcome} (houtcome : KeepsLogin session outcome)
    (uses : List Use) : KeepsLogin session (outcome.using uses) :=
  ⟨houtcome.user, houtcome.name⟩

theorem keepsLogin_requireUser {continuation : FtpUser → Outcome}
    (hcontinuation : ∀ user, KeepsLogin session (continuation user)) :
    KeepsLogin session (session.requireUser continuation) := by
  unfold requireUser
  split
  · exact keepsLogin_sendFtpMessage _ _
  · exact hcontinuation _

theorem keepsLogin_unless {refused : Prop} [Decidable refused] {code : FtpReplyCode}
    {message : String} {outcome : Outcome} (houtcome : KeepsLogin session outcome) :
    KeepsLogin session (if refused then session.sendFtpMessage code message else outcome) := by
  split
  · exact keepsLogin_sendFtpMessage _ _
  · exact houtcome

variable (param : Bytes)

theorem keepsLogin_executeCWD (message : FtpMessage) (uses : List Use) :
    KeepsLogin session (((session.executeCWD world param).1.sendMessage message).using uses) := by
  unfold executeCWD
  split
  · exact ⟨rfl, rfl⟩
  · repeat' (first | split | exact ⟨rfl, rfl⟩ | dsimp only)

theorem keepsLogin_handleFtpCommandCDUP :
    KeepsLogin session (session.handleFtpCommandCDUP world) := by
  refine keepsLogin_requireUser fun user => ?_
  split
  · exact keepsLogin_sendFtpMessage _ _
  · split
    · dsimp only
      split
      · exact keepsLogin_executeCWD _ _ _
      · exact keepsLogin_executeCWD _ _ _
    · exact keepsLogin_sendFtpMessage _ _

theorem keepsLogin_handleFtpCommandTYPE :
    KeepsLogin session (session.handleFtpCommandTYPE param) := by
  refine keepsLogin_requireUser fun user => ?_
  split
  · exact ⟨rfl, rfl⟩
  · split <;> exact ⟨rfl, rfl⟩

theorem keepsLogin_handleFtpCommandRETR :
    KeepsLogin session (session.handleFtpCommandRETR world param) := by
  refine keepsLogin_requireUser fun user => keepsLogin_unless (keepsLogin_unless ?_)
  apply KeepsLogin.using
  refine keepsLogin_unless ?_
  exact keepsLogin_sendFtpMessage _ _

theorem keepsLogin_handleFtpCommandSIZE :
    KeepsLogin session (session.handleFtpCommandSIZE world param) := by
  refine keepsLogin_requireUser fun user => keepsLogin_unless ?_
  apply KeepsLogin.using
  refine keepsLogin_unless ?_
  split <;> exact keepsLogin_sendFtpMessage _ _

theorem keepsLogin_handleFtpCommandSTOR :
    KeepsLogin session (session.handleFtpCommandSTOR world param) := by
  refine keepsLogin_requireUser fun user => keepsLogin_unless (keepsLogin_unless ?_)
  apply KeepsLogin.using
  refine keepsLogin_unless (keepsLogin_unless (keepsLogin_unless ?_))
  exact keepsLogin_sendFtpMessage _ _

theorem keepsLogin_handleFtpCommandAPPE :
    KeepsLogin session (session.handleFtpCommandAPPE world param) := by
  refine keepsLogin_requireUser fun user => keepsLogin_unless (keepsLogin_unless ?_)
  apply KeepsLogin.using
  refine keepsLogin_unless (keepsLogin_unless ?_)
  exact keepsLogin_sendFtpMessage _ _

theorem keepsLogin_handleFtpCommandRNFR :
    KeepsLogin session (session.handleFtpCommandRNFR world param) := by
  unfold handleFtpCommandRNFR
  dsimp only
  split <;> exact ⟨rfl, rfl⟩

theorem keepsLogin_handleFtpCommandRNTO :
    KeepsLogin session (session.handleFtpCommandRNTO world param) := by
  refine keepsLogin_requireUser fun user => ?_
  split
  · exact keepsLogin_sendFtpMessage _ _
  · split
    · exact keepsLogin_sendFtpMessage _ _
    · dsimp only
      split
      · refine KeepsLogin.using ?_ _
        split
        · exact keepsLogin_sendFtpMessage _ _
        · split <;> exact keepsLogin_sendFtpMessage _ _
      · exact (keepsLogin_sendMessage _).using _

theorem keepsLogin_handleFtpCommandDELE :
    KeepsLogin session (session.handleFtpCommandDELE world param) := by
  refine keepsLogin_requireUser fun user => ?_
  apply KeepsLogin.using
  refine keepsLogin_unless (keepsLogin_unless (keepsLogin_unless (keepsLogin_unless ?_)))
  exact keepsLogin_sendFtpMessage _ _

theorem keepsLogin_handleFtpCommandRMD :
    KeepsLogin session (session.handleFtpCommandRMD world param) := by
  refine keepsLogin_requireUser fun user => keepsLogin_unless ?_
  apply KeepsLogin.using
  refine keepsLogin_unless ?_
  exact keepsLogin_sendFtpMessage _ _

theorem keepsLogin_handleFtpCommandMKD :
    KeepsLogin session (session.handleFtpCommandMKD world param) := by
  refine keepsLogin_requireUser fun user => ?_
  split
  · exact keepsLogin_sendFtpMessage _ _
  · refine KeepsLogin.using ?_ _
    split
    · exact keepsLogin_sendMessage _
    · exact keepsLogin_sendFtpMessage _ _

theorem keepsLogin_handleFtpCommandPWD : KeepsLogin session session.handleFtpCommandPWD := by
  unfold handleFtpCommandPWD
  split <;> exact ⟨rfl, rfl⟩

theorem keepsLogin_listDirectory (path : Bytes) (accepted : String) :
    KeepsLogin session (session.listDirectory world path accepted) := by
  refine keepsLogin_requireUser fun user => ?_
  split
  · exact keepsLogin_sendFtpMessage _ _
  · refine KeepsLogin.using ?_ _
    split
    · split
      · split <;> exact keepsLogin_sendFtpMessage _ _
      · exact keepsLogin_sendFtpMessage _ _
    · exact keepsLogin_sendFtpMessage _ _

theorem keepsLogin_handleFtpCommandOPTS :
    KeepsLogin session (session.handleFtpCommandOPTS param) := by
  unfold handleFtpCommandOPTS
  split <;> exact keepsLogin_sendFtpMessage _ _

/-- Every handler but those of `USER`, `PASS` and `QUIT`. -/
theorem keepsLogin_handler {name : Bytes} {handler : World → Session → Bytes → Outcome}
    (hentry : (name, handler) ∈ commandMap) (huser : name ≠ ascii "USER")
    (hpass : name ≠ ascii "PASS") (hquit : name ≠ ascii "QUIT") (param : Bytes) :
    KeepsLogin session (handler world session param) := by
  simp only [commandMap, List.mem_cons, List.not_mem_nil, or_false, Prod.mk.injEq] at hentry
  rcases hentry with ⟨rfl, rfl⟩ | ⟨rfl, rfl⟩ | ⟨-, rfl⟩ | ⟨-, rfl⟩ | ⟨-, rfl⟩ | ⟨-, rfl⟩ |
    ⟨rfl, rfl⟩ | ⟨-, rfl⟩ | ⟨-, rfl⟩ | ⟨-, rfl⟩ | ⟨-, rfl⟩ | ⟨-, rfl⟩ | ⟨-, rfl⟩ | ⟨-, rfl⟩ |
    ⟨-, rfl⟩ | ⟨-, rfl⟩ | ⟨-, rfl⟩ | ⟨-, rfl⟩ | ⟨-, rfl⟩ | ⟨-, rfl⟩ | ⟨-, rfl⟩ | ⟨-, rfl⟩ |
    ⟨-, rfl⟩ | ⟨-, rfl⟩ | ⟨-, rfl⟩ | ⟨-, rfl⟩ | ⟨-, rfl⟩ | ⟨-, rfl⟩ | ⟨-, rfl⟩ | ⟨-, rfl⟩ |
    ⟨-, rfl⟩ | ⟨-, rfl⟩ | ⟨-, rfl⟩ | ⟨-, rfl⟩ | ⟨-, rfl⟩ | ⟨-, rfl⟩ | ⟨-, rfl⟩ | ⟨-, rfl⟩ |
    ⟨-, rfl⟩
  all_goals first
    | exact keepsLogin_sendFtpMessage _ _
    | exact keepsLogin_requireUser fun _ => ⟨rfl, rfl⟩
    | skip
  · exact absurd rfl huser
  · exact absurd rfl hpass
  · exact keepsLogin_executeCWD param _ _
  · exact keepsLogin_handleFtpCommandCDUP
  · exact absurd rfl hquit
  · exact keepsLogin_handleFtpCommandTYPE param
  · exact keepsLogin_handleFtpCommandRETR param
  · exact keepsLogin_handleFtpCommandSTOR param
  · exact keepsLogin_handleFtpCommandAPPE param
  · exact keepsLogin_handleFtpCommandRNFR param
  · exact keepsLogin_handleFtpCommandRNTO param
  · exact keepsLogin_handleFtpCommandDELE param
  · exact keepsLogin_handleFtpCommandRMD param
  · exact keepsLogin_handleFtpCommandMKD param
  · exact keepsLogin_handleFtpCommandPWD
  · exact keepsLogin_listDirectory _ _
  · exact keepsLogin_listDirectory _ _
  · exact ⟨rfl, rfl⟩
  · exact keepsLogin_handleFtpCommandOPTS param
  · exact keepsLogin_handleFtpCommandSIZE param

end Login

section History

variable {session : Session} {input : World × Bytes} {inputs : List (World × Bytes)}
  {user : FtpUser}

theorem step_of_quit (hquit : session.lastCommand = ascii "QUIT") :
    session.step input = session :=
  if_pos hquit

theorem step_of_not_isRecognized (hcommand : ¬ IsRecognized input.2) :
    session.step input = session := by
  unfold step
  split
  · rfl
  · rw [handleFtpCommand_of_not_isRecognized hcommand]
    rfl

variable {handler : World → Session → Bytes → Outcome}

theorem step_of_lookup (hquit : session.lastCommand ≠ ascii "QUIT")
    (hhandler : commandMap.lookup (ftpCommand input.2) = some handler) :
    session.step input =
      { (handler input.1 session (parameters input.2)).session with
        lastCommand := ftpCommand input.2 } := by
  rw [step, if_neg hquit, handleFtpCommand_of_lookup hhandler]

theorem lastCommand_step :
    (session.step input).lastCommand = session.lastCommand ∨
      (session.step input).lastCommand = ftpCommand input.2 := by
  by_cases hquit : session.lastCommand = ascii "QUIT"
  · exact .inl (by rw [step_of_quit hquit])
  · cases hhandler : commandMap.lookup (ftpCommand input.2) with
    | none =>
      have hcommand : ¬ IsRecognized input.2 := by
        rw [IsRecognized, hhandler]
        exact Bool.false_ne_true
      exact .inl (by rw [step_of_not_isRecognized hcommand])
    | some handler => exact .inr (by rw [step_of_lookup hquit hhandler])

theorem run_append (inputs more : List (World × Bytes)) :
    session.run (inputs ++ more) = (session.run inputs).run more :=
  List.foldl_append

theorem run_of_unrecognized (hinputs : ∀ input ∈ inputs, ¬ IsRecognized input.2) :
    session.run inputs = session := by
  induction inputs with
  | nil => rfl
  | cons input inputs ih =>
    rw [List.forall_mem_cons] at hinputs
    change (session.step input).run inputs = session
    rw [step_of_not_isRecognized hinputs.1]
    exact ih hinputs.2

theorem lastCommand_run_ne_quit (hsession : session.lastCommand ≠ ascii "QUIT")
    (hinputs : ∀ input ∈ inputs, ftpCommand input.2 ≠ ascii "QUIT") :
    (session.run inputs).lastCommand ≠ ascii "QUIT" := by
  induction inputs generalizing session with
  | nil => exact hsession
  | cons input inputs ih =>
    rw [List.forall_mem_cons] at hinputs
    refine ih ?_ hinputs.2
    rcases @lastCommand_step session input with hlast | hlast
    · rw [hlast]
      exact hsession
    · rw [hlast]
      exact hinputs.1

theorem isRecognized_of_eq {name : Bytes} (hname : (commandMap.lookup name).isSome = true)
    {command : Bytes} (hcommand : ftpCommand command = name) : IsRecognized command := by
  rw [IsRecognized, hcommand]
  exact hname

theorem lastRecognized_append {name param : Bytes} (hlast : LastRecognized inputs name param)
    (hcommand : ¬ IsRecognized input.2) : LastRecognized (inputs ++ [input]) name param := by
  obtain ⟨before, found, unrecognized, rfl, hname, hparam, hunrecognized⟩ := hlast
  refine ⟨before, found, unrecognized ++ [input], by simp, hname, hparam, ?_⟩
  intro other hother
  rcases List.mem_append.mp hother with hmem | hmem
  · exact hunrecognized other hmem
  · rw [List.mem_singleton.mp hmem]
    exact hcommand

theorem isLoggedIn_append (hlogin : IsLoggedIn inputs user)
    (huser : ftpCommand input.2 ≠ ascii "USER") (hquit : ftpCommand input.2 ≠ ascii "QUIT") :
    IsLoggedIn (inputs ++ [input]) user := by
  obtain ⟨before, pass, after, username, rfl, hlast, hpass, hgetUser, hbefore, hafter⟩ := hlogin
  refine ⟨before, pass, after ++ [input], username, by simp, hlast, hpass, hgetUser, hbefore, ?_⟩
  intro other hother
  rcases List.mem_append.mp hother with hmem | hmem
  · exact hafter other hmem
  · rw [List.mem_singleton.mp hmem]
    exact ⟨huser, hquit⟩

/-- What `RNFR` leaves behind. -/
theorem handleFtpCommandRNFR_session (world : World) (param : Bytes) :
    ((session.handleFtpCommandRNFR world param).session.renameFromPath = [] ∨
        (session.handleFtpCommandRNFR world param).session.renameFromPath = param) ∧
      (session.handleFtpCommandRNFR world param).session.ftpWorkingDirectory =
        session.ftpWorkingDirectory := by
  unfold handleFtpCommandRNFR
  dsimp only
  split
  · exact ⟨.inr rfl, rfl⟩
  · exact ⟨.inl rfl, rfl⟩

theorem handleFtpCommandUSER_session (param : Bytes) :
    (session.handleFtpCommandUSER param).session.loggedInUser = none ∧
      (session.handleFtpCommandUSER param).session.usernameForLogin = param := by
  unfold handleFtpCommandUSER
  split <;> exact ⟨rfl, rfl⟩

/-- Whom `PASS` logs in. -/
theorem loggedInUser_handleFtpCommandPASS {world : World} {param : Bytes}
    (huser : (session.handleFtpCommandPASS world param).session.loggedInUser = some user) :
    session.loggedInUser = some user ∨ session.lastCommand = ascii "USER" ∧
        world.database.getUser session.usernameForLogin param = some user := by
  unfold handleFtpCommandPASS at huser
  split at huser
  · exact .inl huser
  · next hlast =>
    split at huser
    · exact .inl huser
    · next found hfound =>
      obtain rfl : found = user := Option.some_inj.mp huser
      exact .inr ⟨not_not.mp hlast, hfound⟩

/-- The last recognised command is the `RNFR` of a path, in the directory that is still the
working directory. -/
def LastRenames (inputs : List (World × Bytes)) (path directory : Bytes) : Prop :=
  ∃ before input unrecognized, inputs = before ++ input :: unrecognized ∧
    ftpCommand input.2 = ascii "RNFR" ∧ parameters input.2 = path ∧
    (run {} before).ftpWorkingDirectory = directory ∧
    ∀ other ∈ unrecognized, ¬ IsRecognized other.2

structure Remembers (inputs : List (World × Bytes)) (session : Session) : Prop where
  heard : session.lastCommand ≠ ascii "QUIT" → ∀ input ∈ inputs, ftpCommand input.2 ≠ ascii "QUIT"
  quit : session.lastCommand = ascii "QUIT" → session.loggedInUser = none
  name : session.lastCommand = ascii "USER" →
    LastRecognized inputs (ascii "USER") session.usernameForLogin
  user : ∀ user, session.loggedInUser = some user → IsLoggedIn inputs user
  rename : session.lastCommand = ascii "RNFR" → session.renameFromPath ≠ [] →
    LastRenames inputs session.renameFromPath session.ftpWorkingDirectory

theorem Remembers.append_of_not_isRecognized (hremembers : Remembers inputs session)
    (hcommand : ¬ IsRecognized input.2) : Remembers (inputs ++ [input]) session := by
  refine ⟨?_, hremembers.quit, fun hlast => lastRecognized_append (hremembers.name hlast) hcommand, ?_, ?_⟩
  · intro hlast other hother
    rcases List.mem_append.mp hother with hmem | hmem
    · exact hremembers.heard hlast other hmem
    · rw [List.mem_singleton.mp hmem]
      exact fun hquit => hcommand (isRecognized_of_eq rfl hquit)
  · intro user huser
    exact isLoggedIn_append (hremembers.user user huser)
      (fun hname => hcommand (isRecognized_of_eq rfl hname))
      fun hname => hcommand (isRecognized_of_eq rfl hname)
  · intro hlast hpath
    obtain ⟨before, found, unrecognized, rfl, hname, hparam, hdirectory, hunrecognized⟩ :=
      hremembers.rename hlast hpath
    refine ⟨before, found, unrecognized ++ [input], by simp, hname, hparam, hdirectory, ?_⟩
    intro other hother
    rcases List.mem_append.mp hother with hmem | hmem
    · exact hunrecognized other hmem
    · rw [List.mem_singleton.mp hmem]
      exact hcommand

theorem isLoggedIn_of_handler
    (hremembers : Remembers inputs session) (hquit : session.lastCommand ≠ ascii "QUIT")
    (hhandler : commandMap.lookup (ftpCommand input.2) = some handler)
    (huser : (handler input.1 session (parameters input.2)).session.loggedInUser = some user) :
    IsLoggedIn (inputs ++ [input]) user := by
  by_cases hname : ftpCommand input.2 = ascii "USER"
  · rw [hname] at hhandler
    obtain rfl : (fun _ => handleFtpCommandUSER) = handler := Option.some_inj.mp hhandler
    rw [(handleFtpCommandUSER_session _).1] at huser
    cases huser
  by_cases hpass : ftpCommand input.2 = ascii "PASS"
  · rw [hpass] at hhandler
    obtain rfl : handleFtpCommandPASS = handler := Option.some_inj.mp hhandler
    rcases loggedInUser_handleFtpCommandPASS huser with huser | ⟨hlast, hgetUser⟩
    · exact isLoggedIn_append (hremembers.user user huser) (by rw [hpass]; decide) (by rw [hpass]; decide)
    · exact ⟨inputs, input, [], session.usernameForLogin, rfl, hremembers.name hlast, hpass,
        hgetUser, hremembers.heard hquit, List.forall_mem_nil _⟩
  by_cases hgone : ftpCommand input.2 = ascii "QUIT"
  · rw [hgone] at hhandler
    obtain rfl : (fun _ session _ => handleFtpCommandQUIT session) = handler :=
      Option.some_inj.mp hhandler
    cases huser
  · have hkeeps := @keepsLogin_handler input.1 session _ _ (mem_commandMap hhandler) hname hpass
      hgone (parameters input.2)
    rw [hkeeps.user] at huser
    exact isLoggedIn_append (hremembers.user user huser) hname hgone

theorem remembers_step (hremembers : Remembers inputs (run {} inputs)) :
    Remembers (inputs ++ [input]) ((run {} inputs).step input) := by
  by_cases hquit : (run {} inputs).lastCommand = ascii "QUIT"
  · rw [step_of_quit hquit]
    have hnone := hremembers.quit hquit
    refine ⟨fun hlast => absurd hquit hlast, hremembers.quit, ?_, ?_, ?_⟩
    · intro hlast
      exact absurd (hquit.symm.trans hlast) (by decide)
    · intro user huser
      exact nomatch hnone.symm.trans huser
    · intro hlast
      exact absurd (hquit.symm.trans hlast) (by decide)
  cases hhandler : commandMap.lookup (ftpCommand input.2) with
  | none =>
    have hcommand : ¬ IsRecognized input.2 := by
      rw [IsRecognized, hhandler]
      exact Bool.false_ne_true
    rw [step_of_not_isRecognized hcommand]
    exact hremembers.append_of_not_isRecognized hcommand
  | some handler =>
    rw [step_of_lookup hquit hhandler]
    refine ⟨?_, ?_, ?_, ?_, ?_⟩
    · intro hlast other hother
      rcases List.mem_append.mp hother with hmem | hmem
      · exact hremembers.heard hquit other hmem
      · rw [List.mem_singleton.mp hmem]
        exact hlast
    · intro hlast
      change ftpCommand input.2 = _ at hlast
      rw [hlast] at hhandler
      obtain rfl : (fun _ session _ => handleFtpCommandQUIT session) = handler :=
        Option.some_inj.mp hhandler
      rfl
    · intro hlast
      change ftpCommand input.2 = _ at hlast
      refine ⟨inputs, input, [], rfl, hlast, ?_, List.forall_mem_nil _⟩
      rw [hlast] at hhandler
      obtain rfl : (fun _ => handleFtpCommandUSER) = handler := Option.some_inj.mp hhandler
      exact (handleFtpCommandUSER_session _).2.symm
    · intro user huser
      exact isLoggedIn_of_handler hremembers hquit hhandler huser
    · intro hlast hpath
      change ftpCommand input.2 = _ at hlast
      have hname := hlast
      rw [hlast] at hhandler
      obtain rfl : handleFtpCommandRNFR = handler := Option.some_inj.mp hhandler
      obtain ⟨hrename, hdirectory⟩ :=
        @handleFtpCommandRNFR_session (run {} inputs) input.1 (parameters input.2)
      exact ⟨inputs, input, [], rfl, hname, (hrename.resolve_left hpath).symm, hdirectory.symm,
        List.forall_mem_nil _⟩

theorem remembers_run (inputs : List (World × Bytes)) : Remembers inputs (run {} inputs) := by
  induction inputs using List.reverseRecOn with
  | nil =>
    refine ⟨fun _ => List.forall_mem_nil _, fun _ => rfl, ?_, ?_, ?_⟩
    · rintro ⟨⟩
    · rintro user ⟨⟩
    · rintro ⟨⟩
  | append_singleton inputs input ih =>
    rw [run_append]
    exact remembers_step ih

/-- A user stays logged in until the next `USER` or `QUIT`. -/
theorem loggedInUser_run (hsession : session.loggedInUser = some user)
    (hname : session.lastCommand ≠ ascii "USER") (hquit : session.lastCommand ≠ ascii "QUIT")
    (hinputs : ∀ input ∈ inputs,
      ftpCommand input.2 ≠ ascii "USER" ∧ ftpCommand input.2 ≠ ascii "QUIT") :
    (session.run inputs).loggedInUser = some user := by
  induction inputs generalizing session with
  | nil => exact hsession
  | cons input inputs ih =>
    rw [List.forall_mem_cons] at hinputs
    obtain ⟨⟨huser, hgone⟩, hinputs⟩ := hinputs
    change ((session.step input).run inputs).loggedInUser = some user
    cases hhandler : commandMap.lookup (ftpCommand input.2) with
    | none =>
      have hcommand : ¬ IsRecognized input.2 := by
        rw [IsRecognized, hhandler]
        exact Bool.false_ne_true
      rw [step_of_not_isRecognized hcommand]
      exact ih hsession hname hquit hinputs
    | some handler =>
      rw [step_of_lookup hquit hhandler]
      refine ih ?_ huser hgone hinputs
      by_cases hpass : ftpCommand input.2 = ascii "PASS"
      · rw [hpass] at hhandler
        obtain rfl : handleFtpCommandPASS = handler := Option.some_inj.mp hhandler
        rw [handleFtpCommandPASS, if_pos hname]
        exact hsession
      · rw [← hsession]
        exact (keepsLogin_handler (mem_commandMap hhandler) huser hpass hgone _).user

theorem loggedInUser_of_isLoggedIn (hlogin : IsLoggedIn inputs user) :
    (run {} inputs).loggedInUser = some user := by
  obtain ⟨before, pass, after, username, rfl, hlast, hpass, hgetUser, hbefore, hafter⟩ := hlogin
  obtain ⟨early, name, unrecognized, rfl, hname, rfl, hunrecognized⟩ := hlast
  obtain ⟨hearly, hnone⟩ := List.forall_mem_append.mp hbefore
  have hquit : (run {} early).lastCommand ≠ ascii "QUIT" :=
    lastCommand_run_ne_quit (by decide) hearly
  -- the session after `USER` and what was not recognised
  have hstep : run {} (early ++ name :: unrecognized) =
      { ((run {} early).handleFtpCommandUSER (parameters name.2)).session with
        lastCommand := ascii "USER" } := by
    rw [run_append]
    change ((run {} early).step name).run unrecognized = _
    have hhandler : commandMap.lookup (ftpCommand name.2) =
        some (fun _ => handleFtpCommandUSER) := by
      rw [hname]
      rfl
    rw [step_of_lookup hquit hhandler, run_of_unrecognized hunrecognized, hname]
  have hgiven := (@handleFtpCommandUSER_session (run {} early) (parameters name.2)).2
  rw [run_append]
  change ((run {} (early ++ name :: unrecognized)).step pass |>.run after).loggedInUser = _
  have hhandler : commandMap.lookup (ftpCommand pass.2) = some handleFtpCommandPASS := by
    rw [hpass]
    rfl
  rw [hstep, step_of_lookup (show ascii "USER" ≠ ascii "QUIT" by decide) hhandler, hpass]
  refine loggedInUser_run ?_ (show ascii "PASS" ≠ ascii "USER" by decide)
    (show ascii "PASS" ≠ ascii "QUIT" by decide) hafter
  unfold handleFtpCommandPASS
  rw [if_neg (not_not.mpr rfl)]
  dsimp only
  rw [hgiven, hgetUser]
  rfl

/-- After the commands so far a user is logged in just when the last `PASS` that was
accepted says so, and whatever the next command does, and it does nothing but its actions,
that user has the permissions for it; what is renamed was named by `RNFR` right before. -/
structure IsAuthorized (inputs : List (World × Bytes)) : Prop where
  login : ∀ user, (run {} inputs).loggedInUser = some user ↔ IsLoggedIn inputs user
  permitted : ∀ world command, ∀ action ∈ (run {} inputs).actions world command,
    ∃ user, IsLoggedIn inputs user ∧
      ∀ permission ∈ action.permissions, user.permissions permission = true
  renamed : ∀ world command, ∀ action ∈ (run {} inputs).actions world command,
    ∀ source, action.renamed = some source → ∃ user path, IsLoggedIn inputs user ∧
      LastRenames inputs path (run {} inputs).ftpWorkingDirectory ∧
      source = (run {} inputs).toLocalPath user path
  complete : ∀ (world other : World) (command : Bytes),
    world.Agrees other ((run {} inputs).actions world command) →
      (run {} inputs).handleFtpCommand world command =
        (run {} inputs).handleFtpCommand other command

end History

end Session

end AwsMock.Ftp
