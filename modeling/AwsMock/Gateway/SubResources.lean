import AwsMock.Gateway.Safety

/-! # Requests for sub-resources

A query parameter such as `policy` asks for a part of a bucket or an object, and the
command of such a request has to be another one than that for the whole. Methods
look for different parameters, in a query that is decoded before it is split, so a
parameter may be there and not be looked for, or not be found.
-/

namespace AwsMock.Gateway

open Foundation Http HttpUtils

section SubResources

def subResources : List String :=
  ["policy", "acl", "cors", "tagging", "website", "lifecycle", "encryption", "replication",
    "ownershipControls", "publicAccessBlock", "requestPayment", "notification", "versioning",
    "uploads"]

def wholeCommands (method : Verb) : List S3CommandType :=
  [.createBucket, .deleteBucket, .putObject, .deleteObject] ++
    if method = .get then [.getObject, .listObjects] else []

def bucketCommands : List S3CommandType :=
  [.bucketNotification, .putBucketNotificationConfiguration, .getBucketNotificationConfiguration,
    .putBucketEncryption, .putBucketVersioning, .putBucketLifecycleConfiguration,
    .getBucketLifecycleConfiguration, .deleteBucketLifecycle, .getBucketPolicy, .putBucketPolicy,
    .deleteBucketPolicy, .getBucketAcl, .putBucketAcl, .getBucketLocation, .getBucketCors,
    .putBucketCors, .deleteBucketCors, .getBucketTagging, .putBucketTagging,
    .deleteBucketTagging, .getBucketAccelerate, .putBucketAccelerate, .getBucketObjectLock,
    .putBucketObjectLock, .getBucketWebsite, .putBucketWebsite, .deleteBucketWebsite,
    .getBucketRequestPayment, .getBucketOwnershipControls, .putBucketOwnershipControls,
    .deleteBucketOwnershipControls, .getBucketPublicAccessBlock, .putBucketPublicAccessBlock,
    .deleteBucketPublicAccessBlock, .getBucketReplication, .deleteBucketReplication]

/-- The query of the target has a parameter whose own name, once decoded, is this one. -/
def Carries (target name : Bytes) : Prop :=
  63 ∈ target ∧ ∃ part ∈ Bytes.split (target.dropWhile (· ≠ 63)).tail 38,
    Bytes.urlDecode (part.takeWhile (· ≠ 61)) = some name

instance (target name : Bytes) : Decidable (Carries target name) :=
  inferInstanceAs (Decidable (_ ∧ _))

def CarriesSubResource (target : Bytes) : Prop := ∃ name ∈ subResources, Carries target (ascii name)

instance (target : Bytes) : Decidable (CarriesSubResource target) :=
  inferInstanceAs (Decidable (∃ name ∈ subResources, Carries target (ascii name)))

variable (urls : UrlLibrary) (request : Request)

def LacksClientCommand : Prop :=
  ∃ userAgent, UserAgent.fromRequest request = .ok userAgent ∧ userAgent.clientCommand = []

def NamesBucket : Prop := ∃ bucket, getS3BucketName urls request = .ok bucket ∧ bucket ≠ []

def NamesKey : Prop := ∃ key, getS3ObjectKey urls request = .ok key ∧ key ≠ []

/-- A command that is not mistaken: none for the whole when a sub-resource is asked
for, and none for a part of the bucket when there is a key. -/
def IsApart (command : S3CommandType) : Prop :=
  (CarriesSubResource request.target → command ∉ wholeCommands request.method) ∧
    (NamesKey urls request → command ∉ bucketCommands)

/-- However the request is classified, its command is not mistaken. -/
def KeepsApart (region user : Bytes) : Prop :=
  ∀ client, S3ClientCommand.fromRequest urls request region user = .ok client →
    IsApart urls request client.command

end SubResources

section Conditions

def Finds (target : Bytes) (name : String) : Prop :=
  hasQueryParameter target (ascii name) = .ok true

def FindsAny (target : Bytes) (names : List String) : Prop := ∃ name ∈ names, Finds target name

/-- The parameters that a method with no command looks for, unless the request has an
upload or is a copy. -/
def knownParameters : Verb → List String
  | .get => S3ClientCommand.getResources.map Prod.fst
  | .put => ["encryption", "notification", "versioning", "lifecycle"] ++
      S3ClientCommand.putResources.map Prod.fst
  | .delete => S3ClientCommand.deleteResources.map Prod.fst
  | _ => []

variable (urls : UrlLibrary) (request : Request)

def IsReadable : Prop :=
  LengthFits request ∧ (∃ segments, urls.parseOriginForm request.target = some segments) ∧
    QueryDecodes request.target ∧ ∃ params, urls.parseReference request.target = some params

def IsMultipart : Prop :=
  Finds request.target "uploads" ∨ Finds request.target "partNumber" ∨
    ∃ uploadId, getStringParameter urls request.target (ascii "uploadId") = .ok uploadId ∧
      uploadId ≠ []

/-- For a bucket a sub-resource has to come with a parameter that is known to the
method. For an object no such parameter and no sub-resource may be there. -/
def IsSparedByMethod : Prop :=
  (NamesKey urls request → ¬ FindsAny request.target (knownParameters request.method) ∧
      ¬ CarriesSubResource request.target) ∧
    (¬ NamesKey urls request → CarriesSubResource request.target →
      FindsAny request.target (knownParameters request.method))

/-- The requests whose command is not mistaken: a command that a header names has to be
none of those that are excluded. -/
def IsSpared : Prop :=
  if hasHeader request (ascii "x-awsmock-target") = true then
    IsApart urls request
      (s3CommandTypeFromString (getHeaderValue request (ascii "x-awsmock-action")))
  else
    match request.method with
    | .get => CarriesSubResource request.target → NamesBucket urls request →
        (NamesKey urls request →
          hasHeader request (ascii "Range") = true ∧ ¬ Finds request.target "partNumber") ∧
        (¬ NamesKey urls request → FindsAny request.target (knownParameters request.method))
    | .put => IsMultipart urls request ∨
        hasHeader request (ascii "x-amz-copy-source") = true ∨ IsSparedByMethod urls request
    | .delete => IsMultipart urls request ∨ IsSparedByMethod urls request
    | _ => True

end Conditions

section Readings

variable {urls : UrlLibrary} {request : Request} {region user : Bytes}

structure IsReadFrom (urls : UrlLibrary) (request : Request) (client : S3ClientCommand) :
    Prop where
  method : client.method = request.method
  url : client.url = request.target
  bucket : getS3BucketName urls request = .ok client.bucket
  key : getS3ObjectKey urls request = .ok client.key
  uploads : hasQueryParameter request.target (ascii "uploads") = .ok client.uploads
  uploadId : getStringParameter urls request.target (ascii "uploadId") = .ok client.uploadId
  partNumber : hasQueryParameter request.target (ascii "partNumber") = .ok client.partNumber
  lifecycleRequest :
    hasQueryParameter request.target (ascii "lifecycle") = .ok client.lifecycleRequest
  notificationRequest :
    hasQueryParameter request.target (ascii "notification") = .ok client.notificationRequest
  versionRequest :
    hasQueryParameter request.target (ascii "versioning") = .ok client.versionRequest
  encryptionRequest :
    hasQueryParameter request.target (ascii "encryption") = .ok client.encryptionRequest
  rangeRequest : client.rangeRequest = hasHeader request (ascii "Range")
  multipartRequest :
    client.multipartRequest = (client.uploads || client.uploadId ≠ [] || client.partNumber)
  copyRequest : client.copyRequest = hasHeader request (ascii "x-amz-copy-source")

theorem fromRequest_eq_ok {client : S3ClientCommand} (hlacks : LacksClientCommand request)
    (hclient : S3ClientCommand.fromRequest urls request region user = .ok client) :
    if hasHeader request (ascii "x-awsmock-target") = true then
      client.command = s3CommandTypeFromString (getHeaderValue request (ascii "x-awsmock-action"))
    else ∃ read, IsReadFrom urls request read ∧ read.command = .unknown ∧
      S3ClientCommand.getCommandFromMethod read = .ok client.command := by
  obtain ⟨userAgent, huserAgent, hcommand⟩ := hlacks
  unfold S3ClientCommand.fromRequest at hclient
  simp only [bind_eq_ok] at hclient
  obtain ⟨userAgent', huserAgent', contentLength, -, bucket, hbucket, key, hkey, uploads, huploads,
    uploadId, huploadId, partNumber, hpartNumber, lifecycle, hlifecycle, notification,
    hnotification, versioning, hversioning, encryption, hencryption, hclient⟩ := hclient
  rw [huserAgent] at huserAgent'
  cases huserAgent'
  rw [if_neg (not_not.mpr hcommand)] at hclient
  by_cases htarget : hasHeader request (ascii "x-awsmock-target") = true
  · rw [if_pos htarget] at hclient ⊢
    cases hclient
    rfl
  · rw [if_neg htarget] at hclient ⊢
    rw [bind_eq_ok] at hclient
    obtain ⟨command, hmethod, hclient⟩ := hclient
    refine ⟨_, ?_, rfl, hmethod.trans ?_⟩
    · exact ⟨rfl, rfl, hbucket, hkey, huploads, huploadId, hpartNumber, hlifecycle,
        hnotification, hversioning, hencryption, rfl, rfl, rfl⟩
    · split at hclient
      · rw [bind_eq_ok] at hclient
        obtain ⟨prefixText, -, hclient⟩ := hclient
        cases hclient
        rfl
      · cases hclient
        rfl

variable {client : S3ClientCommand}

theorem finds_iff {target : Bytes} {name : String} {found : Bool}
    (hfound : hasQueryParameter target (ascii name) = .ok found) :
    Finds target name ↔ found = true := by
  unfold Finds
  rw [hfound]
  exact Except.ok.injEq found true ▸ Iff.rfl

variable (hread : IsReadFrom urls request client)
include hread

theorem IsReadFrom.namesKey_iff :
    NamesKey urls request ↔ client.key ≠ [] := by
  unfold NamesKey
  rw [hread.key]
  constructor
  · rintro ⟨key, hkey, hne⟩
    cases hkey
    exact hne
  · intro hne
    exact ⟨_, rfl, hne⟩

theorem IsReadFrom.namesBucket_iff :
    NamesBucket urls request ↔ client.bucket ≠ [] := by
  unfold NamesBucket
  rw [hread.bucket]
  constructor
  · rintro ⟨bucket, hbucket, hne⟩
    cases hbucket
    exact hne
  · intro hne
    exact ⟨_, rfl, hne⟩

theorem IsReadFrom.isMultipart_iff :
    IsMultipart urls request ↔ client.multipartRequest = true := by
  unfold IsMultipart
  rw [finds_iff hread.uploads, finds_iff hread.partNumber, hread.uploadId, hread.multipartRequest,
    Bool.or_eq_true, Bool.or_eq_true, decide_eq_true_iff]
  constructor
  · rintro (huploads | hpart | ⟨uploadId, hupload, hne⟩)
    · exact .inl (.inl huploads)
    · exact .inr hpart
    · cases hupload
      exact .inl (.inr hne)
  · rintro ((huploads | hne) | hpart)
    · exact .inl huploads
    · exact .inr (.inr ⟨_, rfl, hne⟩)
    · exact .inr (.inl hpart)

end Readings

section Classes

variable {urls : UrlLibrary} {request : Request} {command : S3CommandType}

theorem notMem_wholeCommands_of_mem (hcommand : command ∈ bucketCommands) (method : Verb) :
    command ∉ wholeCommands method := by
  have hdisjoint : ∀ command ∈ bucketCommands,
      command ∉ [S3CommandType.createBucket, .deleteBucket, .putObject, .deleteObject,
        .getObject, .listObjects] := by decide
  intro hwhole
  apply hdisjoint command hcommand
  unfold wholeCommands at hwhole
  split_ifs at hwhole
  · exact hwhole
  · rw [List.append_nil] at hwhole
    exact List.mem_append_left _ hwhole

theorem isApart_iff_of_mem_bucketCommands (hcommand : command ∈ bucketCommands) :
    IsApart urls request command ↔ ¬ NamesKey urls request := by
  constructor
  · intro hapart hkey
    exact hapart.2 hkey hcommand
  · intro hkey
    exact ⟨fun _ => notMem_wholeCommands_of_mem hcommand _, fun hnames => absurd hnames hkey⟩

theorem isApart_iff_of_mem_wholeCommands (hcommand : command ∈ wholeCommands request.method) :
    IsApart urls request command ↔ ¬ CarriesSubResource request.target := by
  constructor
  · intro hapart hcarries
    exact hapart.1 hcarries hcommand
  · intro hcarries
    exact ⟨fun hnames => absurd hnames hcarries,
      fun _ hbucket => notMem_wholeCommands_of_mem hbucket _ hcommand⟩

theorem isApart_of_notMem (hwhole : command ∉ wholeCommands .get)
    (hbucket : command ∉ bucketCommands) : IsApart urls request command := by
  refine ⟨fun _ hmem => hwhole ?_, fun _ => hbucket⟩
  unfold wholeCommands at hmem ⊢
  split_ifs at hmem
  · exact hmem
  · rw [List.append_nil] at hmem
    exact List.mem_append_left _ hmem

theorem isSparedByMethod_iff_of_findsAny
    (hfinds : FindsAny request.target (knownParameters request.method)) :
    IsSparedByMethod urls request ↔ ¬ NamesKey urls request := by
  constructor
  · intro hspared hkey
    exact (hspared.1 hkey).1 hfinds
  · intro hkey
    exact ⟨fun hnames => absurd hnames hkey, fun _ _ => hfinds⟩

theorem isSparedByMethod_iff_of_not_findsAny
    (hfinds : ¬ FindsAny request.target (knownParameters request.method)) :
    IsSparedByMethod urls request ↔ ¬ CarriesSubResource request.target := by
  constructor
  · intro hspared hcarries
    by_cases hkey : NamesKey urls request
    · exact (hspared.1 hkey).2 hcarries
    · exact hfinds (hspared.2 hkey hcarries)
  · intro hcarries
    exact ⟨fun _ => ⟨hfinds, hcarries⟩, fun _ hnames => absurd hnames hcarries⟩

end Classes

section Methods

variable {urls : UrlLibrary} {request : Request} {client : S3ClientCommand}
  {command : S3CommandType}

theorem firstResource_eq_ok {uri : Bytes} {otherwise command : S3CommandType}
    {resources : List (String × S3CommandType)}
    (hfirst : firstResource uri (.ok otherwise) resources = .ok command) :
    (∃ resource ∈ resources, Finds uri resource.1 ∧ command = resource.2) ∨
      (¬ FindsAny uri (resources.map Prod.fst) ∧ command = otherwise) := by
  induction resources with
  | nil =>
    cases hfirst
    refine .inr ⟨?_, rfl⟩
    rintro ⟨name, hname, -⟩
    cases hname
  | cons resource resources ih =>
    unfold firstResource at hfirst
    rw [bind_eq_ok] at hfirst
    obtain ⟨found, hfound, hfirst⟩ := hfirst
    cases found with
    | true =>
      cases hfirst
      exact .inl ⟨resource, List.mem_cons_self, hfound, rfl⟩
    | false =>
      rcases ih hfirst with ⟨later, hlater, hfinds, hcommand⟩ | ⟨hnone, hcommand⟩
      · exact .inl ⟨later, List.mem_cons_of_mem _ hlater, hfinds, hcommand⟩
      · refine .inr ⟨?_, hcommand⟩
        rintro ⟨name, hname, hfinds⟩
        rcases List.mem_cons.mp hname with rfl | hname
        · have habsent := (finds_iff hfound).mp hfinds
          cases habsent
        · exact hnone ⟨name, hname, hfinds⟩

theorem isApart_iff_isSparedByMethod {otherwise : S3CommandType}
    (hcommand : (FindsAny request.target (knownParameters request.method) ∧
        command ∈ bucketCommands) ∨
      (¬ FindsAny request.target (knownParameters request.method) ∧ command = otherwise))
    (hotherwise : otherwise ∈ wholeCommands request.method) :
    IsApart urls request command ↔ IsSparedByMethod urls request := by
  rcases hcommand with ⟨hfinds, hbucket⟩ | ⟨hfinds, rfl⟩
  · rw [isApart_iff_of_mem_bucketCommands hbucket, isSparedByMethod_iff_of_findsAny hfinds]
  · rw [isApart_iff_of_mem_wholeCommands hotherwise, isSparedByMethod_iff_of_not_findsAny hfinds]

variable (hread : IsReadFrom urls request client)
include hread

theorem isApart_iff_of_get (hmethod : request.method = .get)
    (hcommand : S3ClientCommand.getCommandFromMethod client = .ok command) :
    IsApart urls request command ↔ (CarriesSubResource request.target → NamesBucket urls request →
        (NamesKey urls request →
          hasHeader request (ascii "Range") = true ∧ ¬ Finds request.target "partNumber") ∧
        (¬ NamesKey urls request → FindsAny request.target (knownParameters request.method))) := by
  unfold S3ClientCommand.getCommandFromMethod at hcommand
  rw [hread.method, hmethod] at hcommand
  rw [hread.namesBucket_iff, hread.namesKey_iff, finds_iff hread.partNumber, ← hread.rangeRequest]
  dsimp only at hcommand
  by_cases hbucket : client.bucket = []
  · rw [if_pos hbucket] at hcommand
    cases hcommand
    exact iff_of_true (isApart_of_notMem (by decide) (by decide)) fun _ hne => absurd hbucket hne
  rw [if_neg hbucket] at hcommand
  by_cases hkey : client.key = []
  · rw [if_pos hkey, hread.url] at hcommand
    have hnames : ¬ NamesKey urls request := fun hnames => hread.namesKey_iff.mp hnames hkey
    rcases firstResource_eq_ok hcommand with ⟨resource, hresource, hfinds, rfl⟩ | ⟨hfinds, rfl⟩
    · have hparts : ∀ resource ∈ S3ClientCommand.getResources,
          resource.2 ∉ wholeCommands .get := by decide
      rw [← hmethod] at hparts
      refine iff_of_true ⟨fun _ => hparts resource hresource, fun hkey => absurd hkey hnames⟩ ?_
      intro _ _
      refine ⟨fun hne => absurd hkey hne, fun _ => ?_⟩
      rw [hmethod]
      exact ⟨resource.1, List.mem_map_of_mem hresource, hfinds⟩
    · rw [isApart_iff_of_mem_wholeCommands (by rw [hmethod]; decide)]
      rw [hmethod]
      constructor
      · intro hcarries hsub
        exact absurd hsub hcarries
      · intro hspared hsub
        exact hfinds ((hspared hsub hbucket).2 (not_not.mpr hkey))
  rw [if_neg hkey] at hcommand
  by_cases hrange : (client.rangeRequest && !client.partNumber) = true
  · rw [if_pos hrange] at hcommand
    cases hcommand
    rw [Bool.and_eq_true, Bool.not_eq_true'] at hrange
    refine iff_of_true (isApart_of_notMem (by decide) (by decide)) fun _ _ => ?_
    refine ⟨fun _ => ⟨hrange.1, ?_⟩, fun hne => absurd hkey hne⟩
    rw [hrange.2]
    exact Bool.false_ne_true
  · rw [if_neg hrange] at hcommand
    cases hcommand
    rw [isApart_iff_of_mem_wholeCommands (by rw [hmethod]; decide)]
    constructor
    · intro hcarries hsub
      exact absurd hsub hcarries
    · intro hspared hsub
      obtain ⟨hhas, hpart⟩ := (hspared hsub hbucket).1 hkey
      apply hrange
      rw [hhas, Bool.not_eq_true] at *
      rw [hpart]
      rfl

theorem isApart_iff_of_put (hmethod : request.method = .put)
    (hcommand : S3ClientCommand.getCommandFromMethod client = .ok command) :
    IsApart urls request command ↔ IsMultipart urls request ∨
      hasHeader request (ascii "x-amz-copy-source") = true ∨ IsSparedByMethod urls request := by
  unfold S3ClientCommand.getCommandFromMethod at hcommand
  rw [hread.method, hmethod] at hcommand
  rw [hread.isMultipart_iff, ← hread.copyRequest]
  dsimp only at hcommand
  by_cases hpart : client.multipartRequest = true
  · rw [if_pos hpart] at hcommand
    cases hcommand
    refine iff_of_true ?_ (.inl hpart)
    split_ifs <;> exact isApart_of_notMem (by decide) (by decide)
  rw [if_neg hpart] at hcommand
  by_cases hcopy : client.copyRequest = true
  · rw [if_pos hcopy] at hcommand
    cases hcommand
    exact iff_of_true (isApart_of_notMem (by decide) (by decide)) (.inr (.inl hcopy))
  rw [if_neg hcopy] at hcommand
  rw [or_iff_right hpart, or_iff_right hcopy]
  have hknown : ∀ {name : String}, name ∈ knownParameters .put → Finds request.target name →
      FindsAny request.target (knownParameters request.method) := by
    intro name hname hfinds
    rw [hmethod]
    exact ⟨name, hname, hfinds⟩
  apply isApart_iff_isSparedByMethod (@id (_ ∨ (_ ∧ command =
    if client.key = [] then .createBucket else .putObject)) ?_)
  · rw [hmethod]
    split_ifs <;> decide
  by_cases hencryption : client.encryptionRequest = true
  · rw [if_pos hencryption] at hcommand
    cases hcommand
    exact .inl ⟨hknown (by decide) ((finds_iff hread.encryptionRequest).mpr hencryption),
      by decide⟩
  rw [if_neg hencryption] at hcommand
  by_cases hnotification : client.notificationRequest = true
  · rw [if_pos hnotification] at hcommand
    cases hcommand
    exact .inl ⟨hknown (by decide) ((finds_iff hread.notificationRequest).mpr hnotification),
      by decide⟩
  rw [if_neg hnotification] at hcommand
  by_cases hversion : client.versionRequest = true
  · rw [if_pos hversion] at hcommand
    cases hcommand
    exact .inl ⟨hknown (by decide) ((finds_iff hread.versionRequest).mpr hversion), by decide⟩
  rw [if_neg hversion] at hcommand
  by_cases hlifecycle : client.lifecycleRequest = true
  · rw [if_pos hlifecycle] at hcommand
    cases hcommand
    exact .inl ⟨hknown (by decide) ((finds_iff hread.lifecycleRequest).mpr hlifecycle), by decide⟩
  rw [if_neg hlifecycle, hread.url] at hcommand
  rcases firstResource_eq_ok hcommand with ⟨resource, hresource, hfinds, rfl⟩ | ⟨hfinds, rfl⟩
  · have hparts : ∀ resource ∈ S3ClientCommand.putResources, resource.2 ∈ bucketCommands := by
      decide
    refine .inl ⟨hknown ?_ hfinds, hparts resource hresource⟩
    exact List.mem_append_right _ (List.mem_map_of_mem hresource)
  · refine .inr ⟨?_, rfl⟩
    rw [hmethod]
    rintro ⟨name, hname, hfound⟩
    rcases List.mem_append.mp hname with hflag | hresource
    · have habsent : ∀ name ∈ ["encryption", "notification", "versioning", "lifecycle"],
          ¬ Finds request.target name := by
        intro name hname
        simp only [List.mem_cons, List.not_mem_nil, or_false] at hname
        rcases hname with rfl | rfl | rfl | rfl
        · rwa [finds_iff hread.encryptionRequest]
        · rwa [finds_iff hread.notificationRequest]
        · rwa [finds_iff hread.versionRequest]
        · rwa [finds_iff hread.lifecycleRequest]
      exact habsent name hflag hfound
    · exact hfinds ⟨name, hresource, hfound⟩

theorem isApart_iff_of_delete (hmethod : request.method = .delete)
    (hcommand : S3ClientCommand.getCommandFromMethod client = .ok command) :
    IsApart urls request command ↔ IsMultipart urls request ∨ IsSparedByMethod urls request := by
  unfold S3ClientCommand.getCommandFromMethod at hcommand
  rw [hread.method, hmethod] at hcommand
  rw [hread.isMultipart_iff]
  dsimp only at hcommand
  by_cases hpart : client.multipartRequest = true
  · rw [if_pos hpart] at hcommand
    cases hcommand
    exact iff_of_true (isApart_of_notMem (by decide) (by decide)) (.inl hpart)
  rw [if_neg hpart, hread.url] at hcommand
  rw [or_iff_right hpart]
  apply isApart_iff_isSparedByMethod (@id (_ ∨ (_ ∧ command =
    if client.key = [] then .deleteBucket else .deleteObject)) ?_)
  · rw [hmethod]
    split_ifs <;> decide
  rw [hmethod]
  rcases firstResource_eq_ok hcommand with ⟨resource, hresource, hfinds, rfl⟩ | ⟨hfinds, rfl⟩
  · have hparts : ∀ resource ∈ S3ClientCommand.deleteResources, resource.2 ∈ bucketCommands := by
      decide
    exact .inl ⟨⟨resource.1, List.mem_map_of_mem hresource, hfinds⟩, hparts resource hresource⟩
  · exact .inr ⟨hfinds, rfl⟩

end Methods

section Classification

variable {urls : UrlLibrary} {request : Request} {region user : Bytes}

/-- The command of a method that is neither `GET`, `PUT` nor `DELETE`. -/
theorem isApart_of_others {client : S3ClientCommand} {command : S3CommandType}
    (hread : IsReadFrom urls request client) (hunknown : client.command = .unknown)
    (hget : request.method ≠ .get) (hput : request.method ≠ .put)
    (hdelete : request.method ≠ .delete)
    (hcommand : S3ClientCommand.getCommandFromMethod client = .ok command) :
    IsApart urls request command := by
  unfold S3ClientCommand.getCommandFromMethod at hcommand
  rw [hread.method] at hcommand
  have hothers : command ∈ [S3CommandType.createMultipartUpload, .completeMultipartUpload,
      .deleteObjects, .unknown] := by
    split at hcommand
    next hmethod => exact absurd hmethod hget
    next hmethod => exact absurd hmethod hput
    next =>
      split_ifs at hcommand <;> cases hcommand <;> simp [hunknown]
    next hmethod => exact absurd hmethod hdelete
    next =>
      cases hcommand
      simp [hunknown]
  have hneither : ∀ command ∈ [S3CommandType.createMultipartUpload, .completeMultipartUpload,
      .deleteObjects, .unknown], command ∉ wholeCommands .get ∧ command ∉ bucketCommands := by
    decide
  exact isApart_of_notMem (hneither command hothers).1 (hneither command hothers).2

theorem isApart_iff_isSpared {client : S3ClientCommand} (hlacks : LacksClientCommand request)
    (hclient : S3ClientCommand.fromRequest urls request region user = .ok client) :
    IsApart urls request client.command ↔ IsSpared urls request := by
  have hcommand := fromRequest_eq_ok hlacks hclient
  unfold IsSpared
  by_cases htarget : hasHeader request (ascii "x-awsmock-target") = true
  · rw [if_pos htarget] at hcommand ⊢
    rw [hcommand]
  · rw [if_neg htarget] at hcommand ⊢
    obtain ⟨read, hread, hunknown, hcommand⟩ := hcommand
    split
    next hmethod => exact isApart_iff_of_get hread hmethod hcommand
    next hmethod => exact isApart_iff_of_put hread hmethod hcommand
    next hmethod => exact isApart_iff_of_delete hread hmethod hcommand
    next hget hput hdelete =>
      exact iff_of_true (isApart_of_others hread hunknown hget hput hdelete hcommand) trivial

theorem agentReads_of_lacksClientCommand (hlacks : LacksClientCommand request) :
    AgentReads request := by
  obtain ⟨userAgent, huserAgent, -⟩ := hlacks
  exact succeeds_userAgent.mp ⟨userAgent, huserAgent⟩

/-- No request that can be read is mistaken, exactly when it is spared. -/
theorem keepsApart_iff (region user : Bytes) (hlacks : LacksClientCommand request) :
    KeepsApart urls request region user ↔ (IsReadable urls request → IsSpared urls request) := by
  constructor
  · rintro hkeeps ⟨hlength, horigin, hquery, hreference⟩
    have hagent := agentReads_of_lacksClientCommand hlacks
    obtain ⟨client, hclient⟩ := (@succeeds_fromRequest urls request region user).mpr
      ⟨hagent, hlength, horigin, hquery, hreference⟩
    exact (isApart_iff_isSpared hlacks hclient).mp (hkeeps client hclient)
  · intro hspared client hclient
    have hsucceeds := succeeds_fromRequest.mp ⟨client, hclient⟩
    exact (isApart_iff_isSpared hlacks hclient).mpr (hspared hsucceeds.2)

end Classification

section Samples

/-- `DELETE /logs?lifecycle`, which takes away the life cycle of a bucket. -/
def lifecycleRequest : Request where
  methodString := ascii "DELETE"
  target := ascii "/logs?lifecycle"
  fields := [(ascii "Host", ascii "localhost:4566")]

/-- The life cycle of a bucket cannot be deleted without the bucket. -/
theorem not_keepsApart_lifecycle :
    ¬ ∀ (urls : UrlLibrary) (request : Request) (region user : Bytes),
      LacksClientCommand request → KeepsApart urls request region user := by
  intro hkeeps
  have hlacks : LacksClientCommand lifecycleRequest := ⟨_, rfl, rfl⟩
  have hapart := hkeeps plainLibrary lifecycleRequest [] [] hlacks
  have hcommand : (S3ClientCommand.fromRequest plainLibrary lifecycleRequest [] []).map
      S3ClientCommand.command = .ok .deleteBucket := by decide +kernel
  cases hclient : S3ClientCommand.fromRequest plainLibrary lifecycleRequest [] [] with
  | error fault =>
    rw [hclient] at hcommand
    cases hcommand
  | ok client =>
    rw [hclient] at hcommand
    have hdelete : client.command = .deleteBucket := Except.ok.inj hcommand
    apply (hapart client hclient).1 (by decide +kernel)
    rw [hdelete]
    decide +kernel

/-- `DELETE /logs?policy` is spared. -/
def policyRequest : Request where
  methodString := ascii "DELETE"
  target := ascii "/logs?policy"
  fields := [(ascii "Host", ascii "localhost:4566")]

theorem keepsApart_policy :
    KeepsApart plainLibrary policyRequest [] [] ↔
      (IsReadable plainLibrary policyRequest → IsSpared plainLibrary policyRequest) :=
  keepsApart_iff [] [] ⟨_, rfl, rfl⟩

end Samples

end AwsMock.Gateway
