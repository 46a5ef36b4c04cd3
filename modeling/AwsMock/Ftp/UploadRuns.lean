import AwsMock.Ftp.Uploads

/-! # Uploads under the right identity

As long as a posted request runs while its user is logged in, and commands leave the files of
unfinished uploads alone, every upload puts one object, with the bytes that have come.
-/

namespace AwsMock.Ftp

open Foundation Foundation.Inodes

namespace Uploads

variable (server : Server) (state : Uploads)

/-! ## The invariant -/

def worksOf (strand : List Task) (index : Nat) : List Work :=
  (strand.filter fun task => task.upload = index).map fun task => task.work

def queuedData (works : List Work) : Bytes :=
  works.flatMap fun
    | .write data _ => data
    | .close => []

def Queued (phase : Phase) (works : List Work) : Prop :=
  match phase with
  | .waiting => ∃ data, works = [.write data true]
  | .ended => works = [.close] ∨ ∃ data, works = [.write data false, .close]
  | _ => works = []

/-- What holds of an upload: the bytes that have come are those in its file and those that
wait to be written, and there is one step at most to come that puts its object. -/
structure IsSound (state : Uploads) (index : Nat) (upload : Upload) : Prop where
  inode : upload.inode < state.disk.next
  queued : Queued upload.phase (worksOf state.fileRwStrand index)
  requests : state.requests.countP (fun request => request.upload = index) =
    if upload.phase = .closed then 1 else 0
  puts : state.puts.countP (fun put => put.upload = index) =
    if upload.phase = .stored then 1 else 0
  file : upload.appending = false → upload.isUnfinished = true →
    state.disk.files upload.fileName = some upload.inode ∧
      state.disk.contents upload.inode ++ queuedData (worksOf state.fileRwStrand index) =
        upload.received ∧
      upload.position = (state.disk.contents upload.inode).length

def IsRequestOf (request : CreateObjectRequest) (upload : Upload) : Prop :=
  upload.phase = .closed ∧ request.user = upload.user ∧ request.fileName = upload.fileName

def IsPutOf (put : PutObject) (upload : Upload) : Prop :=
  upload.phase = .stored ∧ (upload.appending = false → put.body = upload.received) ∧
    put.bucket = server.bucket ∧ put.owner = upload.user ∧
    put.userAgentId = upload.user ++ ascii "@" ++ server.serverName ∧
    put.key = getKey upload.fileName

structure Invariant (state : Uploads) : Prop where
  alive : state.crashed = false
  bounded : state.disk.IsBounded
  sound : ∀ index upload, state.uploads[index]? = some upload → IsSound state index upload
  fresh : ∀ index, state.uploads[index]? = none → worksOf state.fileRwStrand index = [] ∧
    state.requests.countP (fun request => request.upload = index) = 0 ∧
    state.puts.countP (fun put => put.upload = index) = 0
  alone : ∀ (first second : Nat) (upload other : Upload), first ≠ second →
    state.uploads[first]? = some upload → state.uploads[second]? = some other →
    upload.appending = false → upload.isUnfinished = true → other.isWriting = true →
      upload.inode ≠ other.inode
  requests : ∀ request ∈ state.requests, ∃ upload,
    state.uploads[request.upload]? = some upload ∧ IsRequestOf request upload
  puts : ∀ put ∈ state.puts, ∃ upload,
    state.uploads[put.upload]? = some upload ∧ IsPutOf server put upload
  deletions : ∀ deletion ∈ state.deletions,
    deletion.bucket = server.bucket ∧ deletion.key = getKey deletion.fileName

section Invariant

variable {server : Server} {state next : Uploads}

theorem worksOf_append (strand more : List Task) (index : Nat) :
    worksOf (strand ++ more) index = worksOf strand index ++ worksOf more index := by
  rw [worksOf, List.filter_append, List.map_append]
  rfl

theorem worksOf_cons_self (task : Task) (strand : List Task) :
    worksOf (task :: strand) task.upload = task.work :: worksOf strand task.upload := by
  rw [worksOf, List.filter_cons_of_pos (by simp)]
  rfl

variable {index : Nat}

theorem worksOf_cons_of_ne {task : Task} (hindex : index ≠ task.upload)
    (strand : List Task) : worksOf (task :: strand) index = worksOf strand index := by
  rw [worksOf, List.filter_cons_of_neg (by simpa using hindex.symm)]
  rfl

theorem countP_close (strand : List Task) (index : Nat) :
    strand.countP (fun task => task.upload = index && task.work = .close) =
      (worksOf strand index).count .close := by
  induction strand with
  | nil => rfl
  | cons task strand ih =>
    rw [List.countP_cons, ih]
    by_cases hindex : index = task.upload
    · subst hindex
      rw [worksOf_cons_self, List.count_cons]
      simp
    · rw [worksOf_cons_of_ne hindex]
      simp [Ne.symm hindex]

theorem Invariant.keepsUploads (hstate : Invariant server state) : KeepsUploads server state := by
  refine ⟨hstate.alive, ?_, ?_⟩
  · intro index upload hupload hended
    obtain ⟨-, hqueued, hrequests, hputs, -⟩ := hstate.sound index upload hupload
    rw [countP_close, hrequests, hputs]
    cases hphase : upload.phase with
    | ended =>
      rw [hphase] at hqueued
      rcases hqueued with hworks | ⟨data, hworks⟩
      · rw [hworks]
        rfl
      · rw [hworks]
        rfl
    | closed =>
      rw [hphase] at hqueued
      rw [show worksOf state.fileRwStrand index = [] from hqueued]
      rfl
    | stored =>
      rw [hphase] at hqueued
      rw [show worksOf state.fileRwStrand index = [] from hqueued]
      rfl
    | _ =>
      rw [Upload.hasEnded, hphase] at hended
      cases hended
  · intro put hput
    obtain ⟨upload, hupload, hphase, hbody, hbucket, howner, hagent, hkey⟩ := hstate.puts put hput
    refine ⟨upload, hupload, by rw [Upload.hasEnded, hphase]; rfl, hbody, hbucket, howner, hagent,
      ?_⟩
    intro deletion hdeletion hfile
    obtain ⟨hsame, hdeleted⟩ := hstate.deletions deletion hdeletion
    exact ⟨hsame.trans hbucket.symm, by rw [hdeleted, hkey, hfile]⟩

/-- A step that touches one upload, which is not yet stored, and no file but its own while
it is written. -/
structure Touches (server : Server) (state next : Uploads) (index : Nat)
    (upload upload' : Upload) : Prop where
  found : state.uploads[index]? = some upload
  uploads : ∀ other, next.uploads[other]? =
    if other = index then some upload' else state.uploads[other]?
  alive : next.crashed = state.crashed
  deletions : next.deletions = state.deletions
  files : next.disk.files = state.disk.files
  bound : next.disk.next = state.disk.next
  contents : ∀ inode, (upload.isWriting = true → inode ≠ upload.inode) →
    next.disk.contents inode = state.disk.contents inode
  inode : upload'.inode = upload.inode
  appending : upload'.appending = upload.appending
  pending : upload.phase ≠ .stored
  unfinished : upload'.isUnfinished = true → upload.isUnfinished = true
  writing : upload'.isWriting = true → upload.isWriting = true
  works : ∀ other, other ≠ index →
    worksOf next.fileRwStrand other = worksOf state.fileRwStrand other
  requestCount : ∀ other, other ≠ index →
    next.requests.countP (fun request => request.upload = other) =
      state.requests.countP (fun request => request.upload = other)
  putCount : ∀ other, other ≠ index → next.puts.countP (fun put => put.upload = other) =
      state.puts.countP (fun put => put.upload = other)
  requests : ∀ request ∈ next.requests, request ∈ state.requests ∧ request.upload ≠ index ∨
      request.upload = index ∧ IsRequestOf request upload'
  puts : ∀ put ∈ next.puts, put ∈ state.puts ∨ put.upload = index ∧ IsPutOf server put upload'

theorem Touches.invariant {upload upload' : Upload}
    (htouches : Touches server state next index upload upload')
    (hstate : Invariant server state) (hsound : IsSound next index upload') :
    Invariant server next := by
  have hself : next.uploads[index]? = some upload' := by
    rw [htouches.uploads, if_pos rfl]
  have hothers : ∀ {other}, other ≠ index → next.uploads[other]? = state.uploads[other]? := by
    intro other hother
    rw [htouches.uploads, if_neg hother]
  refine ⟨htouches.alive.trans hstate.alive, ?_, ?_, ?_, ?_, ?_, ?_, ?_⟩
  · intro name inode hname
    rw [htouches.files] at hname
    rw [htouches.bound]
    exact hstate.bounded name inode hname
  · intro other found hfound
    by_cases hother : other = index
    · subst hother
      rw [hself] at hfound
      obtain rfl := Option.some_inj.mp hfound
      exact hsound
    · rw [hothers hother] at hfound
      obtain ⟨hinode, hqueued, hrequests, hputs, hfile⟩ := hstate.sound other found hfound
      refine ⟨by rw [htouches.bound]; exact hinode, ?_, ?_, ?_, ?_⟩
      · rw [htouches.works other hother]
        exact hqueued
      · rw [htouches.requestCount other hother]
        exact hrequests
      · rw [htouches.putCount other hother]
        exact hputs
      · intro happending hunfinished
        -- a file that is written meanwhile is another one
        have hcontents : next.disk.contents found.inode = state.disk.contents found.inode :=
          htouches.contents found.inode fun hwriting =>
            hstate.alone other index found upload hother hfound htouches.found happending
              hunfinished hwriting
        rw [htouches.files, hcontents, htouches.works other hother]
        exact hfile happending hunfinished
  · intro other hnone
    have hother : other ≠ index := by
      rintro rfl
      exact nomatch hnone.symm.trans hself
    rw [hothers hother] at hnone
    rw [htouches.works other hother, htouches.requestCount other hother,
      htouches.putCount other hother]
    exact hstate.fresh other hnone
  · intro first second found other hne hfound hother happending hunfinished hwriting
    by_cases hfirst : first = index
    · subst hfirst
      rw [hself] at hfound
      obtain rfl := Option.some_inj.mp hfound
      rw [hothers hne.symm] at hother
      rw [htouches.inode]
      exact hstate.alone first second upload other hne htouches.found hother
        (htouches.appending.symm.trans happending) (htouches.unfinished hunfinished) hwriting
    · rw [hothers hfirst] at hfound
      by_cases hsecond : second = index
      · subst hsecond
        rw [hself] at hother
        obtain rfl := Option.some_inj.mp hother
        rw [htouches.inode]
        exact hstate.alone first second found upload hne hfound htouches.found happending
          hunfinished (htouches.writing hwriting)
      · rw [hothers hsecond] at hother
        exact hstate.alone first second found other hne hfound hother happending hunfinished
          hwriting
  · intro request hrequest
    rcases htouches.requests request hrequest with ⟨hold, hother⟩ | ⟨heq, hnew⟩
    · rw [hothers hother]
      exact hstate.requests request hold
    · exact ⟨upload', by rw [heq, hself], hnew⟩
  · intro put hput
    rcases htouches.puts put hput with hold | ⟨heq, hnew⟩
    · obtain ⟨found, hfound, hright⟩ := hstate.puts put hold
      have hother : put.upload ≠ index := by
        intro heq
        rw [heq, htouches.found] at hfound
        obtain rfl := Option.some_inj.mp hfound
        exact htouches.pending hright.1
      exact ⟨found, by rw [hothers hother, hfound], hright⟩
    · exact ⟨upload', by rw [heq, hself], hnew⟩
  · rw [htouches.deletions]
    exact hstate.deletions

theorem Invariant.request_ne (hstate : Invariant server state) {upload : Upload}
    (hfound : state.uploads[index]? = some upload) (hphase : upload.phase ≠ .closed) :
    ∀ request ∈ state.requests, request ∈ state.requests ∧ request.upload ≠ index := by
  intro request hrequest
  refine ⟨hrequest, ?_⟩
  rintro rfl
  obtain ⟨found, hsame, hclosed, -⟩ := hstate.requests request hrequest
  rw [hfound] at hsame
  obtain rfl := Option.some_inj.mp hsame
  exact hphase hclosed

theorem Invariant.accept (hstate : Invariant server state) (index : Nat) (ok : Bool) :
    Invariant server (state.acceptDataConnection index ok) := by
  by_cases hfixed : ∃ upload, state.uploads[index]? = some upload ∧ upload.phase = .accepting
  · obtain ⟨upload, hfound, hphase⟩ := hfixed
    have hsound := hstate.sound index upload hfound
    have htouches : Touches server state (state.acceptDataConnection index ok) index upload
        { upload with phase := if ok then .reading else .aborted } := by
      refine {
        found := hfound
        uploads := ?_
        alive := rfl
        deletions := rfl
        files := rfl
        bound := rfl
        contents := fun _ _ => rfl
        inode := rfl
        appending := rfl
        pending := by rw [hphase]; decide
        unfinished := fun _ => by rw [Upload.isUnfinished, Upload.isWriting, hphase]; rfl
        writing := fun _ => by rw [Upload.isWriting, hphase]; rfl
        works := fun _ _ => rfl
        requestCount := fun _ _ => rfl
        putCount := fun _ _ => rfl
        requests := ?_
        puts := fun _ hput => .inl hput }
      · intro other
        refine (getElem?_modify_of_some hfound other).trans ?_
        rw [if_pos hphase]
      · intro request hrequest
        exact .inl (hstate.request_ne hfound (by rw [hphase]; decide) request hrequest)
    refine htouches.invariant hstate ⟨hsound.inode, ?_, ?_, ?_, ?_⟩
    · have hqueued := hsound.queued
      rw [hphase] at hqueued
      cases ok <;> exact hqueued
    · have hrequests := hsound.requests
      rw [hphase] at hrequests
      cases ok <;> exact hrequests
    · have hputs := hsound.puts
      rw [hphase] at hputs
      cases ok <;> exact hputs
    · intro happending _
      exact hsound.file happending (by rw [Upload.isUnfinished, Upload.isWriting, hphase]; rfl)
  · have heq : state.acceptDataConnection index ok = state := by
      unfold acceptDataConnection
      rw [modify_of_fixed]
      intro upload hfound
      exact if_neg fun hphase => hfixed ⟨upload, hfound, hphase⟩
    rw [heq]
    exact hstate

theorem worksOf_map_self (index : Nat) (works : List Work) :
    worksOf (works.map (Task.mk index)) index = works := by
  induction works with
  | nil => rfl
  | cons work works ih =>
    rw [List.map_cons]
    refine (worksOf_cons_self (Task.mk index work) _).trans ?_
    rw [ih]

theorem worksOf_map_of_ne {index other : Nat} (hother : other ≠ index) (works : List Work) :
    worksOf (works.map (Task.mk index)) other = [] := by
  induction works with
  | nil => rfl
  | cons work works ih =>
    rw [List.map_cons]
    exact (worksOf_cons_of_ne (show other ≠ (Task.mk index work).upload from hother) _).trans ih

section

variable (hstate : Invariant server state)
include hstate

theorem Invariant.enqueue {index : Nat} {upload : Upload}
    (hfound : state.uploads[index]? = some upload) (hphase : upload.phase = .reading)
    {data : Bytes} {phase : Phase} {works : List Work} (hclosed : phase ≠ .closed)
    (hstored : phase ≠ .stored) (hworks : Queued phase works) (hdata : queuedData works = data) :
    Invariant server
      { state with
        uploads := state.uploads.modify index fun upload =>
          { upload with received := upload.received ++ data, phase := phase }
        fileRwStrand := state.fileRwStrand ++ works.map (Task.mk index) } := by
  obtain ⟨hinode, hqueued, hrequests, hputs, hfile⟩ := hstate.sound index upload hfound
  rw [hphase] at hqueued hrequests hputs
  have hempty : worksOf state.fileRwStrand index = [] := hqueued
  have hwriting : upload.isWriting = true := by rw [Upload.isWriting, hphase]; rfl
  have hunfinished : upload.isUnfinished = true := by rw [Upload.isUnfinished, hwriting]; rfl
  have hself : worksOf (state.fileRwStrand ++ works.map (Task.mk index)) index = works := by
    rw [worksOf_append, hempty, worksOf_map_self]
    rfl
  have htouches : Touches server state
      { state with
        uploads := state.uploads.modify index fun upload =>
          { upload with received := upload.received ++ data, phase := phase }
        fileRwStrand := state.fileRwStrand ++ works.map (Task.mk index) } index upload
      { upload with received := upload.received ++ data, phase := phase } := {
    found := hfound
    uploads := getElem?_modify_of_some hfound
    alive := rfl
    deletions := rfl
    files := rfl
    bound := rfl
    contents := fun _ _ => rfl
    inode := rfl
    appending := rfl
    pending := by rw [hphase]; decide
    unfinished := fun _ => hunfinished
    writing := fun _ => hwriting
    works := fun other hother => by
      rw [worksOf_append, worksOf_map_of_ne hother, List.append_nil]
    requestCount := fun _ _ => rfl
    putCount := fun _ _ => rfl
    requests := fun request hrequest =>
      .inl (hstate.request_ne hfound (by rw [hphase]; decide) request hrequest)
    puts := fun _ hput => .inl hput }
  refine htouches.invariant hstate ⟨hinode, ?_, ?_, ?_, ?_⟩
  · rw [hself]
    exact hworks
  · rw [if_neg hclosed]
    exact hrequests
  · rw [if_neg hstored]
    exact hputs
  · intro happending _
    obtain ⟨hname, hcontents, hposition⟩ := hfile happending hunfinished
    refine ⟨hname, ?_, hposition⟩
    rw [hempty] at hcontents
    rw [hself, hdata, ← hcontents]
    simp [queuedData]

theorem Invariant.read (index : Nat) (data : Bytes) (ended : Bool) :
    Invariant server (state.receiveDataFromSocketAndWriteToFile index data ended) := by
  unfold receiveDataFromSocketAndWriteToFile
  split
  · exact hstate
  · next upload hfound =>
    split
    · exact hstate
    · next hreading =>
      have hphase : upload.phase = .reading := not_not.mp hreading
      dsimp only
      split
      · by_cases hdata : data = []
        · subst hdata
          rw [if_neg (not_not.mpr rfl), List.append_nil]
          exact @Invariant.enqueue server state hstate index upload hfound hphase []
            .ended [.close] (by decide) (by decide) (.inl rfl) rfl
        · rw [if_pos hdata, List.append_assoc]
          exact @Invariant.enqueue server state hstate index upload hfound hphase data
            .ended [.write data false, .close] (by decide) (by decide) (.inr ⟨data, rfl⟩)
            (by simp [queuedData])
      · split
        · exact @Invariant.enqueue server state hstate index upload hfound hphase data
            .waiting [.write data true] (by decide) (by decide) ⟨data, rfl⟩ (by simp [queuedData])
        · next hdata =>
          obtain rfl : data = [] := not_not.mp hdata
          have hnext := @Invariant.enqueue server state hstate index upload hfound hphase []
            .stalled [] (by decide) (by decide) rfl rfl
          rw [List.map_nil, List.append_nil] at hnext
          exact hnext

theorem Invariant.runTask : Invariant server state.runTask := by
  unfold Uploads.runTask
  split
  · exact hstate
  · next task tasks hstrand =>
    have hfirst : worksOf state.fileRwStrand task.upload = task.work :: worksOf tasks task.upload := by
      rw [hstrand, worksOf_cons_self]
    have hothers : ∀ other, other ≠ task.upload →
        worksOf tasks other = worksOf state.fileRwStrand other := by
      intro other hother
      rw [hstrand, worksOf_cons_of_ne hother]
    split
    · next hfound =>
      have hnone := (hstate.fresh task.upload hfound).1
      rw [hfirst] at hnone
      cases hnone
    · next upload data fetchMore hfound hwork =>
      obtain ⟨hinode, hqueued, hrequests, hputs, hfile⟩ := hstate.sound task.upload upload hfound
      rw [hfirst, hwork] at hqueued
      have hphase : upload.phase = .waiting ∧ fetchMore = true ∧ worksOf tasks task.upload = [] ∨
          upload.phase = .ended ∧ fetchMore = false ∧ worksOf tasks task.upload = [.close] := by
        cases hphase : upload.phase with
        | waiting =>
          rw [hphase] at hqueued
          obtain ⟨_, heq⟩ := hqueued
          cases (List.cons.inj heq).1
          exact .inl ⟨rfl, rfl, (List.cons.inj heq).2⟩
        | ended =>
          rw [hphase] at hqueued
          rcases hqueued with heq | ⟨_, heq⟩
          · cases heq
          · cases (List.cons.inj heq).1
            exact .inr ⟨rfl, rfl, (List.cons.inj heq).2⟩
        | _ =>
          rw [hphase] at hqueued
          cases hqueued
      have hwriting : upload.isWriting = true := by
        rw [Upload.isWriting]
        rcases hphase with ⟨hphase, -⟩ | ⟨hphase, -⟩ <;> rw [hphase] <;> rfl
      have hunfinished : upload.isUnfinished = true := by rw [Upload.isUnfinished, hwriting]; rfl
      have hclosed : upload.phase ≠ .closed ∧ upload.phase ≠ .stored := by
        rcases hphase with ⟨hphase, -⟩ | ⟨hphase, -⟩ <;> rw [hphase] <;> decide
      have hnext : (if fetchMore then Phase.reading else upload.phase) ≠ .closed ∧
          (if fetchMore then Phase.reading else upload.phase) ≠ .stored := by
        rcases hphase with ⟨-, hmore, -⟩ | ⟨hphase, hmore, -⟩
        · rw [hmore, if_pos rfl]
          decide
        · rw [hmore, hphase]
          decide
      rw [if_neg hclosed.1] at hrequests
      rw [if_neg hclosed.2] at hputs
      dsimp only
      generalize hposition : (if upload.appending then (state.disk.contents upload.inode).length
        else upload.position) = position
      refine Touches.invariant
        { found := hfound
          uploads := getElem?_modify_of_some hfound
          alive := rfl
          deletions := rfl
          files := rfl
          bound := rfl
          contents := fun inode hinode =>
            Volume.contents_write_of_ne position data (hinode hwriting)
          inode := rfl
          appending := rfl
          pending := hclosed.2
          unfinished := fun _ => hunfinished
          writing := fun _ => hwriting
          works := hothers
          requestCount := fun _ _ => rfl
          putCount := fun _ _ => rfl
          requests := fun request hrequest =>
            .inl (hstate.request_ne hfound hclosed.1 request hrequest)
          puts := fun _ hput => .inl hput } hstate ⟨hinode, ?_, ?_, ?_, ?_⟩
      · rcases hphase with ⟨-, hmore, hrest⟩ | ⟨hphase, hmore, hrest⟩
        · rw [hmore]
          exact hrest
        · rw [hmore, if_neg Bool.false_ne_true, hphase]
          exact .inl hrest
      · exact hrequests.trans (if_neg hnext.1).symm
      · exact hputs.trans (if_neg hnext.2).symm
      · intro happending _
        obtain ⟨hname, hcontents, hend⟩ := hfile happending hunfinished
        have hat : position = (state.disk.contents upload.inode).length := by
          rw [← hposition, show upload.appending = false from happending]
          exact hend
        have hwritten := @Volume.contents_write_end _ _ state.disk (0 : UInt8) upload.inode
          position data hat
        refine ⟨hname, ?_, ?_⟩
        · refine (congrArg (· ++ _) hwritten).trans ?_
          rw [hfirst, hwork] at hcontents
          rw [List.append_assoc]
          exact hcontents
        · refine Eq.trans ?_ (congrArg List.length hwritten).symm
          rw [List.length_append, ← hat]
    · next upload hfound hwork =>
      obtain ⟨hinode, hqueued, hrequests, hputs, hfile⟩ := hstate.sound task.upload upload hfound
      rw [hfirst, hwork] at hqueued
      obtain ⟨hphase, hrest⟩ : upload.phase = .ended ∧ worksOf tasks task.upload = [] := by
        cases hphase : upload.phase with
        | ended =>
          rw [hphase] at hqueued
          rcases hqueued with heq | ⟨data, heq⟩
          · exact ⟨rfl, (List.cons.inj heq).2⟩
          · cases heq
        | waiting =>
          rw [hphase] at hqueued
          obtain ⟨data, heq⟩ := hqueued
          cases heq
        | _ =>
          rw [hphase] at hqueued
          cases hqueued
      have hunfinished : upload.isUnfinished = true := by
        rw [Upload.isUnfinished, Upload.isWriting, hphase]; rfl
      rw [hphase] at hrequests hputs
      refine Touches.invariant
        { found := hfound
          uploads := getElem?_modify_of_some hfound
          alive := rfl
          deletions := rfl
          files := rfl
          bound := rfl
          contents := fun _ _ => rfl
          inode := rfl
          appending := rfl
          pending := by rw [hphase]; decide
          unfinished := fun _ => hunfinished
          writing := fun hclosed => nomatch hclosed
          works := hothers
          requestCount := ?_
          putCount := fun _ _ => rfl
          requests := ?_
          puts := fun _ hput => .inl hput } hstate ⟨hinode, ?_, ?_, ?_, ?_⟩
      · intro other hother
        rw [List.countP_append, List.countP_singleton, if_neg (by simpa using hother.symm)]
        rfl
      · intro request hrequest
        rcases List.mem_append.mp hrequest with hold | hnew
        · exact .inl (hstate.request_ne hfound (by rw [hphase]; decide) request hold)
        · rw [List.mem_singleton.mp hnew]
          exact .inr ⟨rfl, rfl, rfl, rfl⟩
      · exact hrest
      · rw [List.countP_append, hrequests]
        simp
      · exact hputs
      · intro happending _
        obtain ⟨hname, hcontents, hend⟩ := hfile happending hunfinished
        rw [hfirst, hwork] at hcontents
        exact ⟨hname, hcontents, hend⟩

theorem Invariant.sendCreateObjectRequest (index : Nat)
    (hheeds : state.HeedsUploads (.runRequest index)) :
    Invariant server (state.sendCreateObjectRequest server index) := by
  unfold Uploads.sendCreateObjectRequest
  split
  · exact hstate
  · next request hindex =>
    obtain ⟨user, huser, hname⟩ := hheeds request hindex
    rw [huser]
    dsimp only
    have hmem : request ∈ state.requests := List.mem_of_getElem? hindex
    obtain ⟨upload, hfound, hphase, howner, hfile⟩ := hstate.requests request hmem
    obtain ⟨hinode, hqueued, hrequests, hputs, hcontents⟩ :=
      hstate.sound request.upload upload hfound
    rw [hphase] at hqueued hrequests hputs
    have hempty : worksOf state.fileRwStrand request.upload = [] := hqueued
    have hrest : (state.requests.eraseIdx index).countP
        (fun other => other.upload = request.upload) = 0 := by
      have hcount := @countP_eraseIdx _ (fun other => other.upload = request.upload) _ _ _ hindex
      rw [hrequests, if_pos rfl, if_pos (decide_eq_true rfl)] at hcount
      omega
    have hunfinished : upload.isUnfinished = true := by
      rw [Upload.isUnfinished, hphase]
      exact Bool.or_true _
    refine Touches.invariant
      { found := hfound
        uploads := getElem?_modify_of_some hfound
        alive := rfl
        deletions := rfl
        files := rfl
        bound := rfl
        contents := fun _ _ => rfl
        inode := rfl
        appending := rfl
        pending := by rw [hphase]; decide
        unfinished := fun _ => hunfinished
        writing := fun hstored => nomatch hstored
        works := fun _ _ => rfl
        requestCount := ?_
        putCount := ?_
        requests := ?_
        puts := ?_ } hstate ⟨hinode, hqueued, ?_, ?_, ?_⟩
    · intro other hother
      have hcount := @countP_eraseIdx _ (fun found => found.upload = other) _ _ _ hindex
      rw [if_neg (by simpa using hother.symm)] at hcount
      exact hcount.symm
    · intro other hother
      rw [List.countP_append, List.countP_singleton, if_neg (by simpa using hother.symm)]
      rfl
    · intro found hleft
      refine .inl ⟨List.mem_of_mem_eraseIdx hleft, ?_⟩
      exact fun heq => List.countP_eq_zero.mp hrest found hleft (decide_eq_true heq)
    · intro put hput
      rcases List.mem_append.mp hput with hold | hnew
      · exact .inl hold
      · rw [List.mem_singleton.mp hnew]
        refine .inr ⟨rfl, rfl, ?_, rfl, howner, by rw [hname, howner], by rw [hfile]⟩
        -- the file is closed, so that all that has come is in it
        intro happending
        obtain ⟨hstored, hreceived, -⟩ := hcontents happending hunfinished
        rw [hempty] at hreceived
        rw [hfile, Volume.read_of_files hstored, ← hreceived]
        exact (List.append_nil _).symm
    · exact hrest
    · rw [List.countP_append, hputs]
      simp
    · intro _ hstored
      cases hstored

end

/-! ## Commands -/

section

variable (hstate : Invariant server state)
include hstate

variable {world : World}

theorem Invariant.receiveFile {user : FtpUser}
    {path : Bytes} {appending : Bool}
    (hspares : ∀ upload ∈ state.uploads, world.opens path state.session.dataTypeBinary = true →
        (upload.appending = false ∧ upload.isUnfinished = true ∨
          appending = false ∧ upload.isWriting = true) →
        state.disk.files path ≠ some upload.inode) :
    Invariant server (state.receiveFile world user path appending) := by
  unfold Uploads.receiveFile
  split
  · next hopens =>
    let opened := state.disk.openFile path (!appending)
    let upload : Upload :=
      { user := user.username, fileName := path, inode := opened.1, appending := appending }
    change Invariant server { state with disk := opened.2, uploads := state.uploads ++ [upload] }
    have hold : ∀ index other, (state.uploads ++ [upload])[index]? = some other →
        state.uploads[index]? = some other ∨ index = state.uploads.length ∧ other = upload := by
      intro index other hfound
      rw [List.getElem?_append] at hfound
      split at hfound
      · exact .inl hfound
      · next hlength =>
        obtain ⟨hindex, heq⟩ := List.getElem?_eq_some_iff.mp hfound
        have hzero : index = state.uploads.length := by
          have hone : index - state.uploads.length < 1 := hindex
          omega
        subst hzero
        refine .inr ⟨rfl, ?_⟩
        simpa using heq.symm
    -- the inode is one that nobody needs, or a new one
    have hother : ∀ (index : Nat) (other : Upload), state.uploads[index]? = some other →
        (other.appending = false ∧ other.isUnfinished = true ∨
          appending = false ∧ other.isWriting = true) → other.inode ≠ opened.1 := by
      intro index other hfound hmatters heq
      rcases @Volume.openFile_inode _ _ _ state.disk path (!appending) with hname | hnew
      · exact hspares other (List.mem_of_getElem? hfound) hopens hmatters (by rw [hname, heq])
      · have hlt := (hstate.sound index other hfound).inode
        exact Nat.ne_of_lt hlt (heq.trans hnew)
    have hnone : state.uploads[state.uploads.length]? = none :=
      List.getElem?_eq_none (Nat.le_refl _)
    have hfresh := hstate.fresh state.uploads.length hnone
    refine ⟨hstate.alive, hstate.bounded.openFile path _, ?_, ?_, ?_, ?_, ?_, hstate.deletions⟩
    · intro index other hfound
      rcases hold index other hfound with hfound | ⟨rfl, rfl⟩
      · obtain ⟨hinode, hqueued, hrequests, hputs, hfile⟩ := hstate.sound index other hfound
        refine ⟨Nat.lt_of_lt_of_le hinode (Volume.next_le_openFile path _), hqueued, hrequests,
          hputs, ?_⟩
        intro happending hunfinished
        obtain ⟨hname, hcontents, hposition⟩ := hfile happending hunfinished
        have hsame : opened.2.contents other.inode = state.disk.contents other.inode :=
          Volume.contents_openFile_of_ne
            (hother index other hfound (.inl ⟨happending, hunfinished⟩))
        refine ⟨Volume.files_openFile_of_some _ hname, ?_, ?_⟩
        · exact (congrArg (· ++ _) hsame).trans hcontents
        · exact hposition.trans (congrArg List.length hsame).symm
      · refine ⟨Volume.openFile_inode_lt hstate.bounded path _, hfresh.1, hfresh.2.1, hfresh.2.2,
          ?_⟩
        intro happending _
        have hempty : opened.2.contents opened.1 = [] := by
          have hself := @Volume.contents_openFile_self _ _ _ state.disk path
          rw [show true = !appending by rw [show appending = false from happending]; rfl] at hself
          exact hself
        refine ⟨Volume.files_openFile path _, ?_, ?_⟩
        · refine (congrArg (· ++ _) hempty).trans ?_
          rw [hfresh.1]
          rfl
        · exact (congrArg List.length hempty).symm
    · intro index hmissing
      refine hstate.fresh index ?_
      rw [List.getElem?_eq_none_iff] at hmissing ⊢
      rw [List.length_append] at hmissing
      omega
    · intro first second found other hne hfirst hsecond happending hunfinished hwriting
      rcases hold first found hfirst with hfirst | ⟨rfl, rfl⟩
      · rcases hold second other hsecond with hsecond | ⟨rfl, rfl⟩
        · exact hstate.alone first second found other hne hfirst hsecond happending hunfinished
            hwriting
        · exact hother first found hfirst (.inl ⟨happending, hunfinished⟩)
      · rcases hold second other hsecond with hsecond | ⟨rfl, rfl⟩
        · exact (hother second other hsecond (.inr ⟨happending, hwriting⟩)).symm
        · exact absurd rfl hne
    · intro request hrequest
      obtain ⟨found, hfound, hright⟩ := hstate.requests request hrequest
      refine ⟨found, ?_, hright⟩
      exact (List.getElem?_append_left (List.getElem?_eq_some_iff.mp hfound).1).trans hfound
    · intro put hput
      obtain ⟨found, hfound, hright⟩ := hstate.puts put hput
      refine ⟨found, ?_, hright⟩
      exact (List.getElem?_append_left (List.getElem?_eq_some_iff.mp hfound).1).trans hfound
  · exact hstate

theorem Invariant.names {disk : Volume Bytes UInt8}
    (hbounded : disk.IsBounded) (hnext : disk.next = state.disk.next)
    (hcontents : disk.contents = state.disk.contents)
    (hfiles : ∀ upload ∈ state.uploads, upload.appending = false → upload.isUnfinished = true →
      disk.files upload.fileName = state.disk.files upload.fileName) :
    Invariant server { state with disk := disk } := by
  refine ⟨hstate.alive, hbounded, ?_, hstate.fresh, hstate.alone, hstate.requests, hstate.puts,
    hstate.deletions⟩
  intro index upload hfound
  obtain ⟨hinode, hqueued, hrequests, hputs, hfile⟩ := hstate.sound index upload hfound
  refine ⟨?_, hqueued, hrequests, hputs, ?_⟩
  · change upload.inode < disk.next
    rw [hnext]
    exact hinode
  · intro happending hunfinished
    change disk.files _ = _ ∧ disk.contents _ ++ _ = _ ∧ _ = (disk.contents _).length
    rw [hcontents, hfiles upload (List.mem_of_getElem? hfound) happending hunfinished]
    exact hfile happending hunfinished

theorem Invariant.delete (user fileName : Bytes) :
    Invariant server (state.sendDeleteObjectRequest server user fileName) := by
  refine ⟨hstate.alive, hstate.bounded, fun index upload hfound => ?_, hstate.fresh, hstate.alone,
    hstate.requests, hstate.puts, ?_⟩
  · obtain ⟨hinode, hqueued, hrequests, hputs, hfile⟩ := hstate.sound index upload hfound
    exact ⟨hinode, hqueued, hrequests, hputs, hfile⟩
  · intro deletion hdeletion
    rcases List.mem_append.mp hdeletion with hold | hnew
    · exact hstate.deletions deletion hold
    · rw [List.mem_singleton.mp hnew]
      exact ⟨rfl, rfl⟩

theorem Invariant.perform {user : FtpUser}
    {action : Action} (hspares : ∀ upload ∈ state.uploads, state.Spares world upload action) :
    Invariant server (Uploads.perform server world user state action) := by
  have hwrite : ∀ path, (∀ upload ∈ state.uploads, state.Spares world upload (.writeFile path)) →
      Invariant server (state.receiveFile world user path false) := by
    intro path hspares
    refine hstate.receiveFile fun upload hupload hopens hmatters => ?_
    refine hspares upload hupload hopens ?_
    rcases hmatters with ⟨happending, hunfinished⟩ | ⟨-, hwriting⟩
    · rw [happending]
      exact hunfinished
    · split
      · exact hwriting
      · rw [Upload.isUnfinished, hwriting]
        rfl
  have hrename : ∀ source target,
      (∀ upload ∈ state.uploads, state.Spares world upload (.renameFile source target)) →
      Invariant server (if world.rename source target then
        { state with disk := state.disk.rename (originOfRename source target) } else state) := by
    intro source target hspares
    split
    · next hdone =>
      refine hstate.names (hstate.bounded.rename _) rfl rfl ?_
      intro upload hupload happending hunfinished
      obtain ⟨hsource, htarget⟩ := hspares upload hupload hdone happending hunfinished
      apply Volume.files_rename_of_origin
      rw [originOfRename, if_neg (by rw [htarget]; decide), if_neg (by rw [hsource]; decide)]
    · exact hstate
  cases action with
  | writeFile path => exact hwrite path hspares
  | overwriteFile path => exact hwrite path hspares
  | appendFile path =>
    refine hstate.receiveFile fun upload hupload hopens hmatters => ?_
    rcases hmatters with ⟨happending, hunfinished⟩ | ⟨hfalse, -⟩
    · exact hspares upload hupload hopens happending hunfinished
    · cases hfalse
  | renameFile source target => exact hrename source target hspares
  | renameDirectory source target => exact hrename source target hspares
  | deleteFile path =>
    change Invariant server (if world.unlink path then _ else state)
    split
    · next hdone =>
      refine Invariant.delete ?_ _ _
      refine hstate.names (hstate.bounded.remove path) rfl rfl ?_
      intro upload hupload happending hunfinished
      exact Volume.files_remove_of_ne (hspares upload hupload hdone happending hunfinished).symm
    · exact hstate
  | _ => exact hstate

theorem Invariant.withSession (session : Session) :
    Invariant server { state with session := session } := by
  refine ⟨hstate.alive, hstate.bounded, fun index upload hfound => ?_, hstate.fresh, hstate.alone,
    hstate.requests, hstate.puts, hstate.deletions⟩
  obtain ⟨hinode, hqueued, hrequests, hputs, hfile⟩ := hstate.sound index upload hfound
  exact ⟨hinode, hqueued, hrequests, hputs, hfile⟩

theorem Invariant.handleCommand {line : Bytes} (hheeds : state.HeedsUploads (.command world line)) :
    Invariant server (state.handleCommand server world line) := by
  unfold Uploads.handleCommand
  apply Invariant.withSession
  split
  · exact hstate
  · next user huser =>
    have hlength := @Session.length_actions world state.session line
    cases hactions : state.session.actions world line with
    | nil => exact hstate
    | cons action actions =>
      rw [hactions, List.length_cons] at hlength
      obtain rfl : actions = [] := List.length_eq_zero_iff.mp (by omega)
      refine hstate.perform fun upload hupload => ?_
      exact hheeds action (by rw [hactions]; exact List.mem_cons_self) upload hupload

end

/-! ## Runs -/

theorem Invariant.step (hstate : Invariant server state) {event : UploadEvent}
    (hheeds : state.HeedsUploads event) : Invariant server (state.step server event) := by
  unfold Uploads.step
  rw [if_neg (by rw [hstate.alive]; decide)]
  cases event with
  | command world line => exact hstate.handleCommand hheeds
  | accept index ok => exact hstate.accept index ok
  | read index data ended => exact hstate.read index data ended
  | runTask => exact hstate.runTask
  | runRequest index => exact hstate.sendCreateObjectRequest index hheeds

theorem invariant_empty (server : Server) : Invariant server {} := by
  refine ⟨rfl, ?_, ?_, ?_, ?_, ?_, ?_, ?_⟩
  · intro name inode hname
    cases hname
  · intro index upload hfound
    cases hfound
  · exact fun _ _ => ⟨rfl, rfl, rfl⟩
  · intro first second upload other hne hfound
    cases hfound
  · exact fun request hrequest => (List.not_mem_nil hrequest).elim
  · exact fun put hput => (List.not_mem_nil hput).elim
  · exact fun deletion hdeletion => (List.not_mem_nil hdeletion).elim

end Invariant

/-- In every run in which posted requests run while their users are logged in, and commands
leave the files of unfinished uploads alone, the uploads are kept in every state. -/
theorem keepsUploads_of_heeded (server : Server) (events : List UploadEvent)
    (hheeds : Runs.Heeded (step server) HeedsUploads events {}) :
    Runs.Always (step server) (KeepsUploads server) events {} := by
  refine Runs.Always.imp (fun _ => Invariant.keepsUploads) ?_
  exact Runs.always_of_heeded (fun _ _ hstate hheeds => hstate.step hheeds) events (invariant_empty server) hheeds

section Sample

def sampleWorld : World where
  database :=
    { getUserByUserName := fun username =>
        if username = ascii "bob" then some ⟨ascii "bob", ascii "secret"⟩ else none }
  opens := fun _ _ => true
  passive := fun _ => (true, [])

def sampleServer : Server := ⟨ascii "server", ascii "transfer"⟩

def sampleUpload : List UploadEvent :=
  [.command sampleWorld (ascii "USER bob"), .command sampleWorld (ascii "PASS secret"),
    .command sampleWorld (ascii "PASV"), .command sampleWorld (ascii "STOR notes"),
    .accept 0 true, .read 0 (ascii "one") false, .runTask, .read 0 (ascii "two") true, .runTask,
    .runTask]

/-- The user stays until the object is put. -/
theorem keepsUploads_of_heeded_notes :
    Runs.Always (step sampleServer) (KeepsUploads sampleServer)
      (sampleUpload ++ [.runRequest 0, .command sampleWorld (ascii "QUIT")]) {} :=
  keepsUploads_of_heeded sampleServer _ (by decide)

/-- The user is gone when the object is to be put. -/
theorem not_keepsUploads_quit :
    ¬ ∀ (server : Server) (events : List UploadEvent),
      Runs.Always (step server) (KeepsUploads server) events {} := by
  intro hall
  have halive := (hall sampleServer
    (sampleUpload ++ [UploadEvent.command sampleWorld (ascii "QUIT"), .runRequest 0])).last.alive
  have hcrashed : ((sampleUpload ++
      [UploadEvent.command sampleWorld (ascii "QUIT"), .runRequest 0]).foldl
        (step sampleServer) {}).crashed = true := by
    decide
  rw [hcrashed] at halive
  cases halive

end Sample

end Uploads

end AwsMock.Ftp
