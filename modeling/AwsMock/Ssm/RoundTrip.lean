import AwsMock.SecretsManager.RoundTrip
import AwsMock.Ssm.Service

/-! # The values of parameters

A ledger notes for every parameter what was stored last, and how often. The readers report it
just when no value but the empty one is stored with a key.
-/

namespace AwsMock.Ssm

open Foundation Crypto SecretsManager

section Definitions

structure Entry where
  value : Bytes
  writes : Nat
deriving DecidableEq

/-- What was stored last under every name, and the writes since the parameter was made. -/
abbrev Ledger := String → Option Entry

def Ledger.note (ledger : Ledger) (name : String) (value : Bytes) : Ledger :=
  Function.update ledger name (some ⟨value, ((ledger name).elim 0 Entry.writes) + 1⟩)

structure Account where
  world : World
  ledger : Ledger

variable (cipher : Cipher)

def Keyed (world : World) (request : ParameterRequest) : Bool :=
  request.kmsKeyArn = "" || (world.keys.find (keyIdOf request.kmsKeyArn)).isSome

def Operation.stores (world : World) : Operation → Option ParameterRequest
  | .putParameter request _ | .createParameter request _ _ =>
    if !world.parameterExists request.name && Keyed world request then some request else none
  | .updateParameter request _ =>
    if world.parameterExists request.name && Keyed world request then some request else none
  | .changeKeys _ => none

def Account.step (account : Account) (operation : Operation) : Account where
  world := Ssm.step cipher account.world operation
  ledger :=
    match operation.stores account.world with
    | some request => account.ledger.note request.name request.value
    | none => account.ledger

structure Reports (account : Account) (name : String) (entry : Entry) : Prop where
  version : (account.world.getParameterByName name).map Parameter.version = some entry.writes
  getParameter : ∀ parameter ∈ account.world.getParameterByName name,
    (getParameter cipher account.world name (parameter.kmsKeyArn ≠ "")).map
      Parameter.parameterValue = .ok entry.value
  getParameterCounter :
    (getParameterCounter cipher account.world name).map Parameter.parameterValue = .ok entry.value

structure ReportsStored (account : Account) : Prop where
  reports : ∀ name entry, account.ledger name = some entry → Reports cipher account name entry
  lists : ∀ region namePrefix, ∃ counters,
    listParameterCounters cipher account.world region namePrefix = .ok counters ∧
      List.Forall₂ (fun counter parameter =>
          counter.parameterName = parameter.parameterName ∧
            (account.ledger parameter.parameterName).map Entry.value = some counter.parameterValue)
        counters (account.world.listParameters region namePrefix)

/-- Without a key any value is stored under a type that is not encrypted, and with a key only
the empty value, which the key gives back. -/
def Suits (keys : KeyStore) (request : ParameterRequest) : Prop :=
  if request.kmsKeyArn = "" then request.type ≠ .secureString
  else request.value = [] ∧ ∀ key ∈ keys.find (keyIdOf request.kmsKeyArn),
    cipher.decryptPlaintext key (cipher.encryptPlaintext key []) = [] ∧
      (request.type = .secureString ∨ cipher.encryptPlaintext key [] = [])

/-- Values are stored that suit their keys, and keys that are in use go on to give back the
empty value. -/
def Heeds (account : Account) (operation : Operation) : Prop :=
  match operation with
  | .changeKeys keys => ∀ parameter ∈ account.world.parameters, parameter.kmsKeyArn ≠ "" →
      ∃ key ∈ keys.find (keyIdOf parameter.kmsKeyArn),
        cipher.decryptPlaintext key parameter.parameterValue = []
  | _ => ∀ request ∈ operation.stores account.world, Suits cipher account.world.keys request

def Account.start (keys : KeyStore) : Account := ⟨{ keys := keys }, fun _ => none⟩

/-- Every parameter has an entry of its version, under a name of its own. -/
structure Account.IsValid (account : Account) : Prop where
  names : (account.world.parameters.map Parameter.parameterName).Nodup
  noted : ∀ parameter ∈ account.world.parameters,
    (account.ledger parameter.parameterName).map Entry.writes = some parameter.version
  stored : ∀ name entry, account.ledger name = some entry →
    (account.world.getParameterByName name).isSome

structure Readable (keys : KeyStore) (parameter : Parameter) (value : Bytes) : Prop where
  read : (readParameter cipher ⟨[], keys⟩ (parameter.kmsKeyArn ≠ "") parameter).map
    Parameter.parameterValue = .ok value
  counter : (readCounter cipher ⟨[], keys⟩ parameter).map Parameter.parameterValue = .ok value
  listed : (readListed cipher ⟨[], keys⟩ parameter).map Parameter.parameterValue = .ok value

def Parameter.Holds (keys : KeyStore) (parameter : Parameter) (value : Bytes) : Prop :=
  if parameter.kmsKeyArn = "" then
    parameter.parameterValue = value ∧ ParameterType.ofName parameter.type ≠ .secureString
  else
    value = [] ∧
      (ParameterType.ofName parameter.type = .secureString ∨ parameter.parameterValue = []) ∧
      ∃ key ∈ keys.find (keyIdOf parameter.kmsKeyArn),
        cipher.decryptPlaintext key parameter.parameterValue = []

end Definitions

/-! ## Readers -/

section Readers

variable {cipher : Cipher} {keys : KeyStore} {world : World} {parameter : Parameter}
  {value : Bytes}

theorem find_empty (keys : KeyStore) : keys.find "" = none :=
  findKey_eq_none.mpr keys.property

theorem decrypted_of_none {read : Bytes → Bytes}
    (hfind : world.keys.find (keyIdOf parameter.kmsKeyArn) = none) :
    (decrypted cipher world parameter read).map Parameter.parameterValue =
      .error ("Key not found, keyId: " ++ keyIdOf parameter.kmsKeyArn) := by
  rw [decrypted, KeyStore.decrypt, hfind]
  rfl

theorem decrypted_of_some {key : Kms.Key} {read : Bytes → Bytes}
    (hfind : world.keys.find (keyIdOf parameter.kmsKeyArn) = some key) :
    (decrypted cipher world parameter read).map Parameter.parameterValue =
      .ok (read (cipher.decryptPlaintext key parameter.parameterValue)) := by
  rw [decrypted, KeyStore.decrypt, hfind]
  rfl

theorem readable_iff : Readable cipher keys parameter value ↔ parameter.Holds cipher keys value := by
  by_cases harn : parameter.kmsKeyArn = ""
  · rw [Parameter.Holds, if_pos harn]
    have hread : (readParameter cipher ⟨[], keys⟩ (parameter.kmsKeyArn ≠ "") parameter).map
        Parameter.parameterValue = .ok parameter.parameterValue := by
      rw [readParameter, if_neg (by simpa using harn)]
      rfl
    have hcounter : (readCounter cipher ⟨[], keys⟩ parameter).map Parameter.parameterValue =
        .ok parameter.parameterValue := by
      rw [readCounter, if_neg (not_not.mpr harn)]
      rfl
    constructor
    · rintro ⟨hvalue, _, hlisted⟩
      refine ⟨Except.ok.inj (hread.symm.trans hvalue), fun htype => ?_⟩
      rw [readListed, if_pos htype, decrypted_of_none] at hlisted
      · cases hlisted
      · rw [harn]
        exact find_empty keys
    · rintro ⟨rfl, htype⟩
      refine ⟨hread, hcounter, ?_⟩
      rw [readListed, if_neg htype]
      rfl
  · rw [Parameter.Holds, if_neg harn]
    have hread : readParameter cipher ⟨[], keys⟩ (parameter.kmsKeyArn ≠ "") parameter =
        decrypted cipher ⟨[], keys⟩ parameter base64Decode := by
      rw [readParameter, if_pos (decide_eq_true harn)]
    have hcounter : readCounter cipher ⟨[], keys⟩ parameter =
        decrypted cipher ⟨[], keys⟩ parameter id := by
      rw [readCounter, if_pos harn]
    cases hfind : keys.find (keyIdOf parameter.kmsKeyArn) with
    | none =>
      refine iff_of_false (fun hreadable => ?_) (fun hholds => ?_)
      · have hvalue := hreadable.read
        rw [hread, decrypted_of_none hfind] at hvalue
        cases hvalue
      · obtain ⟨_, _, key, hkey, _⟩ := hholds
        cases hkey
    | some key =>
      constructor
      · rintro ⟨hvalue, hplain, hlisted⟩
        rw [hread, decrypted_of_some hfind] at hvalue
        rw [hcounter, decrypted_of_some hfind] at hplain
        have hdecoded := Except.ok.inj hvalue
        have hsame : cipher.decryptPlaintext key parameter.parameterValue = value :=
          Except.ok.inj hplain
        rw [hsame] at hdecoded
        have hempty := base64Decode_eq_self_iff.mp hdecoded
        refine ⟨hempty, ?_, key, rfl, hsame.trans hempty⟩
        by_contra hnot
        obtain ⟨htype, hstored⟩ := not_or.mp hnot
        rw [readListed, if_neg htype] at hlisted
        exact hstored ((Except.ok.inj hlisted).trans hempty)
      · rintro ⟨rfl, htype, other, hother, hplain⟩
        obtain rfl := Option.some.inj hother
        refine ⟨?_, ?_, ?_⟩
        · rw [hread, decrypted_of_some hfind, hplain]
          rfl
        · rw [hcounter, decrypted_of_some hfind, hplain]
          rfl
        · rw [readListed]
          split
          · rw [decrypted_of_some hfind, hplain]
            rfl
          · next hplainType =>
            exact congrArg Except.ok (htype.resolve_left hplainType)

theorem name_readListed {counter : Parameter}
    (hlisted : readListed cipher world parameter = .ok counter) :
    counter.parameterName = parameter.parameterName := by
  rw [readListed] at hlisted
  split at hlisted
  · rw [decrypted] at hlisted
    cases hplain : world.keys.decrypt cipher (keyIdOf parameter.kmsKeyArn)
        parameter.parameterValue with
    | error message =>
      rw [hplain] at hlisted
      cases hlisted
    | ok plaintext =>
      rw [hplain] at hlisted
      cases hlisted
      rfl
  · cases hlisted
    rfl

theorem listParameters_all (world : World) : world.listParameters "" "" = world.parameters :=
  List.filter_eq_self.mpr fun _ _ => rfl

theorem reportsStored_iff {account : Account} (hvalid : account.IsValid) :
    ReportsStored cipher account ↔ ∀ parameter ∈ account.world.parameters,
      ∀ entry, account.ledger parameter.parameterName = some entry →
        parameter.Holds cipher account.world.keys entry.value := by
  constructor
  · intro hreports parameter hparameter entry hentry
    have hfind : account.world.getParameterByName parameter.parameterName = some parameter :=
      findKey_of_mem hvalid.names hparameter
    have hreported := hreports.reports parameter.parameterName entry hentry
    rw [← readable_iff]
    constructor
    · have hread := hreported.getParameter parameter hfind
      rw [getParameter, hfind] at hread
      exact hread
    · have hread := hreported.getParameterCounter
      rw [getParameterCounter, hfind] at hread
      exact hread
    · have hall := exists_mapM_forall₂.mp (hreports.lists "" "") parameter
        (listParameters_all account.world ▸ hparameter)
      obtain ⟨counter, hcounter, _, hvalue⟩ := hall
      rw [hentry] at hvalue
      exact map_eq_ok.mpr ⟨counter, hcounter, (Option.some.inj hvalue).symm⟩
  · intro hholds
    constructor
    · intro name entry hentry
      obtain ⟨parameter, hfind⟩ := Option.isSome_iff_exists.mp (hvalid.stored name entry hentry)
      have hmem : parameter ∈ account.world.parameters := mem_of_findKey hfind
      have hname : parameter.parameterName = name := key_of_findKey hfind
      subst hname
      have hreadable := readable_iff.mpr (hholds parameter hmem entry hentry)
      have hnoted := hvalid.noted parameter hmem
      rw [hentry] at hnoted
      constructor
      · rw [hfind]
        exact hnoted.symm
      · intro other hother
        obtain rfl := Option.some.inj (hfind.symm.trans hother)
        rw [getParameter, hfind]
        exact hreadable.read
      · rw [getParameterCounter, hfind]
        exact hreadable.counter
    · intro region namePrefix
      refine exists_mapM_forall₂.mpr fun parameter hparameter => ?_
      have hmem := List.mem_of_mem_filter hparameter
      obtain ⟨entry, hentry, _⟩ := Option.map_eq_some_iff.mp (hvalid.noted parameter hmem)
      obtain ⟨counter, hcounter, hvalue⟩ := map_eq_ok.mp
        (readable_iff.mpr (hholds parameter hmem entry hentry)).listed
      refine ⟨counter, hcounter, name_readListed hcounter, ?_⟩
      rw [hentry, hvalue]
      rfl

end Readers

/-! ## Writers -/

section Writers

variable {cipher : Cipher} {account : Account} {world : World} {request : ParameterRequest}
  {plaintext : Bytes}

theorem encryptValue_of_keyed (hkeyed : Keyed world request = true) (plaintext : Bytes) :
    ∃ stored, encryptValue cipher world request plaintext = .ok stored := by
  rw [encryptValue]
  split
  · next harn =>
    rw [Keyed, decide_eq_false harn, Bool.false_or] at hkeyed
    obtain ⟨key, hkey⟩ := Option.isSome_iff_exists.mp hkeyed
    rw [KeyStore.encrypt, hkey]
    exact ⟨_, rfl⟩
  · exact ⟨_, rfl⟩

theorem encryptValue_of_not_keyed (hkeyed : Keyed world request = false) (plaintext : Bytes) :
    encryptValue cipher world request plaintext =
      .error ("Key not found, keyId: " ++ keyIdOf request.kmsKeyArn) := by
  rw [Keyed, Bool.or_eq_false_iff] at hkeyed
  have hkey : world.keys.find (keyIdOf request.kmsKeyArn) = none := by
    rw [← Option.isNone_iff_eq_none, ← Option.isSome_eq_false_iff]
    exact hkeyed.2
  rw [encryptValue, if_pos (of_decide_eq_false hkeyed.1), KeyStore.encrypt, hkey]

theorem holds_iff_suits {parameter : Parameter} (htype : parameter.type = request.type.toName)
    (harn : parameter.kmsKeyArn = request.kmsKeyArn)
    (hstored : encryptValue cipher world request plaintext = .ok parameter.parameterValue)
    (hplaintext : request.value = [] → plaintext = []) :
    parameter.Holds cipher world.keys request.value ↔ Suits cipher world.keys request := by
  rw [Parameter.Holds, Suits, harn, htype, ParameterType.ofName_toName]
  rw [encryptValue] at hstored
  by_cases hnone : request.kmsKeyArn = ""
  · rw [if_neg (not_not.mpr hnone)] at hstored
    rw [if_pos hnone, if_pos hnone]
    exact and_iff_right (Except.ok.inj hstored).symm
  · rw [if_pos hnone, KeyStore.encrypt] at hstored
    rw [if_neg hnone, if_neg hnone]
    refine and_congr_right fun hempty => ?_
    cases hfind : world.keys.find (keyIdOf request.kmsKeyArn) with
    | none =>
      rw [hfind] at hstored
      cases hstored
    | some key =>
      rw [hfind] at hstored
      have hvalue := Except.ok.inj hstored
      rw [hplaintext hempty] at hvalue
      rw [← hvalue]
      simp only [Option.mem_def, Option.some.injEq, exists_eq_left', forall_eq']
      exact and_comm

theorem stored_iff {next : World} {parameter : Parameter} (hvalid : account.IsValid)
    (hreports : ReportsStored cipher account)
    (hmem : ∀ other, other ∈ next.parameters ↔ other = parameter ∨
      (other ∈ account.world.parameters ∧ other.parameterName ≠ request.name))
    (hnames : (next.parameters.map Parameter.parameterName).Nodup)
    (hkeys : next.keys = account.world.keys) (hname : parameter.parameterName = request.name)
    (hversion : parameter.version = (account.ledger request.name).elim 0 Entry.writes + 1) :
    Account.IsValid ⟨next, account.ledger.note request.name request.value⟩ ∧
      (ReportsStored cipher ⟨next, account.ledger.note request.name request.value⟩ ↔
        parameter.Holds cipher account.world.keys request.value) := by
  have hself : account.ledger.note request.name request.value request.name =
      some ⟨request.value, parameter.version⟩ := by
    rw [Ledger.note, Function.update_self, hversion]
  have hother {name : String} (hne : name ≠ request.name) :
      account.ledger.note request.name request.value name = account.ledger name :=
    Function.update_of_ne hne _ _
  have hvalid' : Account.IsValid ⟨next, account.ledger.note request.name request.value⟩ := by
    refine ⟨hnames, ?_, ?_⟩
    · intro other hnext
      rcases (hmem other).mp hnext with rfl | ⟨hold, hne⟩
      · change (account.ledger.note _ _ other.parameterName).map Entry.writes = _
        rw [hname, hself]
        rfl
      · change (account.ledger.note _ _ other.parameterName).map Entry.writes = _
        rw [hother hne]
        exact hvalid.noted other hold
    · intro name entry hentry
      change account.ledger.note request.name request.value name = some entry at hentry
      rw [← Option.ne_none_iff_isSome]
      intro hnone
      rw [World.getParameterByName, findKey_eq_none] at hnone
      by_cases heq : name = request.name
      · exact hnone parameter ((hmem parameter).mpr (Or.inl rfl)) (hname.trans heq.symm)
      · rw [hother heq] at hentry
        obtain ⟨found, hfound⟩ := Option.isSome_iff_exists.mp (hvalid.stored name entry hentry)
        have hfoundName : found.parameterName = name := key_of_findKey hfound
        exact hnone found ((hmem found).mpr (Or.inr ⟨mem_of_findKey hfound, hfoundName ▸ heq⟩))
          hfoundName
  refine ⟨hvalid', ?_⟩
  rw [reportsStored_iff hvalid', hkeys]
  constructor
  · intro hall
    refine hall parameter ((hmem parameter).mpr (Or.inl rfl)) ⟨request.value, parameter.version⟩ ?_
    rw [hname]
    exact hself
  · intro hholds other hnext entry hentry
    change account.ledger.note request.name request.value other.parameterName = some entry at hentry
    rcases (hmem other).mp hnext with rfl | ⟨hold, hne⟩
    · rw [hname, hself] at hentry
      rw [← Option.some.inj hentry]
      exact hholds
    · rw [hother hne] at hentry
      exact (reportsStored_iff hvalid).mp hreports other hold entry hentry

theorem parameterExists_eq_false {name : String} : world.parameterExists name = false ↔
    ∀ parameter ∈ world.parameters, parameter.parameterName ≠ name := by
  simp [World.parameterExists]

theorem storeNew_of_stores (place : Nat) (hnew : world.parameterExists request.name = false)
    (hkeyed : Keyed world request = true) : ∃ parameter : Parameter,
      parameter.parameterName = request.name ∧ parameter.version = 1 ∧
      parameter.type = request.type.toName ∧ parameter.kmsKeyArn = request.kmsKeyArn ∧
      encryptValue cipher world request (base64Encode request.value) =
        .ok parameter.parameterValue ∧
      storeNew cipher world request place = .ok (world.createParameter place parameter) := by
  obtain ⟨stored, hstored⟩ := encryptValue_of_keyed hkeyed (base64Encode request.value)
  refine ⟨⟨request.region, request.name, stored, request.type.toName, 1, request.kmsKeyArn⟩,
    rfl, rfl, rfl, rfl, hstored, ?_⟩
  rw [storeNew, hnew, if_neg Bool.false_ne_true, hstored]
  rfl

theorem storeNew_of_not_stores (place : Nat)
    (hnot : (!world.parameterExists request.name && Keyed world request) = false) :
    ∃ message, storeNew cipher world request place = .error message := by
  rw [storeNew]
  split
  · exact ⟨_, rfl⟩
  · next hnew =>
    rw [Bool.eq_false_iff.mpr hnew, Bool.not_false, Bool.true_and] at hnot
    rw [encryptValue_of_not_keyed hnot]
    exact ⟨_, rfl⟩

theorem storeAgain_of_stores (hknown : world.parameterExists request.name = true)
    (hkeyed : Keyed world request = true) : ∃ read parameter : Parameter,
      world.getParameterByName request.name = some read ∧
      parameter.parameterName = request.name ∧ parameter.version = read.version + 1 ∧
      parameter.type = request.type.toName ∧ parameter.kmsKeyArn = request.kmsKeyArn ∧
      encryptValue cipher world request request.value = .ok parameter.parameterValue ∧
      storeAgain cipher world request = .ok (world.updateParameter parameter) := by
  obtain ⟨stored, hstored⟩ := encryptValue_of_keyed hkeyed request.value
  cases hfind : world.getParameterByName request.name with
  | none =>
    rw [parameterExists_eq_false.mpr (findKey_eq_none.mp hfind)] at hknown
    cases hknown
  | some read =>
    have hname : read.parameterName = request.name := key_of_findKey hfind
    refine ⟨read, { read with
      type := request.type.toName
      version := read.version + 1
      kmsKeyArn := request.kmsKeyArn
      parameterValue := stored }, rfl, hname, rfl, rfl, rfl, hstored, ?_⟩
    rw [storeAgain, hfind]
    dsimp only
    rw [hstored]
    rfl

theorem storeAgain_of_not_stores
    (hnot : (world.parameterExists request.name && Keyed world request) = false) :
    ∃ message, storeAgain cipher world request = .error message := by
  rw [storeAgain]
  cases hfind : world.getParameterByName request.name with
  | none => exact ⟨_, rfl⟩
  | some read =>
    have hknown : world.parameterExists request.name = true := by
      by_contra hunknown
      exact parameterExists_eq_false.mp (Bool.eq_false_iff.mpr hunknown) read
        (mem_of_findKey hfind) (key_of_findKey hfind)
    rw [hknown, Bool.true_and] at hnot
    dsimp only
    rw [encryptValue_of_not_keyed hnot]
    exact ⟨_, rfl⟩

/-- What a step keeps, and when the readers go on to report what was stored. -/
def Account.Follows (cipher : Cipher) (next : Account) (P : Prop) : Prop :=
  next.IsValid ∧ (ReportsStored cipher next ↔ P)

variable (hvalid : account.IsValid)
include hvalid

variable (hreports : ReportsStored cipher account)
include hreports

theorem follows_storeNew (place : Nat) (hnew : account.world.parameterExists request.name = false)
    (hkeyed : Keyed account.world request = true) :
    ∃ next, storeNew cipher account.world request place = .ok next ∧
      Account.Follows cipher ⟨next, account.ledger.note request.name request.value⟩
        (Suits cipher account.world.keys request) := by
  obtain ⟨parameter, hname, hversion, htype, harn, hvalue, hstored⟩ :=
    @storeNew_of_stores cipher _ _ place hnew hkeyed
  refine ⟨_, hstored, ?_⟩
  have hnames := parameterExists_eq_false.mp hnew
  have hunknown : account.ledger request.name = none := by
    by_contra hnoted
    obtain ⟨entry, hentry⟩ := Option.ne_none_iff_exists'.mp hnoted
    have hfound := hvalid.stored request.name entry hentry
    rw [World.getParameterByName, findKey_eq_none.mpr hnames] at hfound
    cases hfound
  rw [Account.Follows, ← holds_iff_suits htype harn hvalue fun hempty => by rw [hempty]; rfl]
  refine stored_iff hvalid hreports (fun other => ?_) ?_ rfl hname ?_
  · rw [World.createParameter, mem_insertAt]
    exact or_congr_right ⟨fun hold => ⟨hold, hnames other hold⟩, And.left⟩
  · refine nodup_map_insertAt hvalid.names (fun other hother => ?_) place
    rw [hname]
    exact hnames other hother
  · rw [hversion, hunknown]
    rfl

theorem follows_storeAgain (hknown : account.world.parameterExists request.name = true)
    (hkeyed : Keyed account.world request = true) :
    ∃ next, storeAgain cipher account.world request = .ok next ∧
      Account.Follows cipher ⟨next, account.ledger.note request.name request.value⟩
        (Suits cipher account.world.keys request) := by
  obtain ⟨read, parameter, hfind, hname, hversion, htype, harn, hvalue, hstored⟩ :=
    @storeAgain_of_stores cipher _ _ hknown hkeyed
  refine ⟨_, hstored, ?_⟩
  have hread : read ∈ account.world.parameters := mem_of_findKey hfind
  have hreadName : read.parameterName = request.name := key_of_findKey hfind
  have hupsert : (account.world.updateParameter parameter).parameters =
      upsert Parameter.parameterName parameter account.world.parameters :=
    (upsert_of_findKey_some (hname.symm ▸ hfind)).symm
  rw [Account.Follows, ← holds_iff_suits htype harn hvalue id]
  refine stored_iff hvalid hreports (fun other => ?_) ?_ rfl hname ?_
  · rw [hupsert, mem_upsert_iff hvalid.names, hname]
  · rw [hupsert]
    exact nodup_upsert hvalid.names
  · have hnoted := hvalid.noted read hread
    rw [hreadName] at hnoted
    obtain ⟨entry, hentry, hwrites⟩ := Option.map_eq_some_iff.mp hnoted
    rw [hversion, hentry, ← hwrites]
    rfl

theorem follows_changeKeys (keys : KeyStore) :
    Account.Follows cipher (account.step cipher (.changeKeys keys))
      (Heeds cipher account (.changeKeys keys)) := by
  have hvalid' : (account.step cipher (.changeKeys keys)).IsValid :=
    ⟨hvalid.names, hvalid.noted, hvalid.stored⟩
  refine ⟨hvalid', ?_⟩
  have hholds := (reportsStored_iff hvalid).mp hreports
  rw [reportsStored_iff hvalid']
  constructor
  · intro hall parameter hparameter harn
    obtain ⟨entry, hentry, _⟩ := Option.map_eq_some_iff.mp (hvalid.noted parameter hparameter)
    have hnext := hall parameter hparameter entry hentry
    rw [Parameter.Holds, if_neg harn] at hnext
    exact hnext.2.2
  · intro hheeds parameter hparameter entry hentry
    have hbefore := hholds parameter hparameter entry hentry
    rw [Parameter.Holds] at hbefore ⊢
    split at hbefore
    · next harn =>
      rw [if_pos harn]
      exact hbefore
    · next harn =>
      rw [if_neg harn]
      exact ⟨hbefore.1, hbefore.2.1, hheeds parameter hparameter harn⟩

theorem follows_request
    {operation : Operation} {accepted : Bool} {result : Except String World}
    (hstores : operation.stores account.world = if accepted then some request else none)
    (hheeds : Heeds cipher account operation = ∀ request ∈ operation.stores account.world,
      Suits cipher account.world.keys request)
    (hstep : step cipher account.world operation =
      match result with
      | .ok next => next
      | .error _ => account.world)
    (hok : accepted = true → ∃ next, result = .ok next ∧
      Account.Follows cipher ⟨next, account.ledger.note request.name request.value⟩
        (Suits cipher account.world.keys request))
    (herror : accepted = false → ∃ message, result = .error message) :
    Account.Follows cipher (account.step cipher operation) (Heeds cipher account operation) := by
  rw [hheeds, Account.step, hstep, hstores]
  cases accepted with
  | true =>
    obtain ⟨next, rfl, hfollows⟩ := hok rfl
    rw [Account.Follows] at hfollows ⊢
    simpa using hfollows
  | false =>
    obtain ⟨message, rfl⟩ := herror rfl
    exact ⟨hvalid, iff_of_true hreports nofun⟩

theorem follows_step (operation : Operation) :
    Account.Follows cipher (account.step cipher operation) (Heeds cipher account operation) := by
  cases operation with
  | putParameter request place =>
    refine @follows_request cipher account request hvalid hreports _ _
      (storeNew cipher account.world request place) rfl rfl ?_ (fun haccepted => ?_)
      (storeNew_of_not_stores place)
    · rw [step, putParameter]
      cases storeNew cipher account.world request place <;> rfl
    · rw [Bool.and_eq_true, Bool.not_eq_true'] at haccepted
      exact follows_storeNew hvalid hreports place haccepted.1 haccepted.2
  | createParameter request place namePrefix =>
    refine @follows_request cipher account request hvalid hreports _ _
      (storeNew cipher account.world request place) rfl rfl ?_ (fun haccepted => ?_)
      (storeNew_of_not_stores place)
    · rw [step, createParameter]
      cases storeNew cipher account.world request place <;> rfl
    · rw [Bool.and_eq_true, Bool.not_eq_true'] at haccepted
      exact follows_storeNew hvalid hreports place haccepted.1 haccepted.2
  | updateParameter request namePrefix =>
    refine @follows_request cipher account request hvalid hreports _ _
      (storeAgain cipher account.world request) rfl rfl ?_ (fun haccepted => ?_)
      storeAgain_of_not_stores
    · rw [step, updateParameter]
      cases storeAgain cipher account.world request <;> rfl
    · rw [Bool.and_eq_true] at haccepted
      exact follows_storeAgain hvalid hreports haccepted.1 haccepted.2
  | changeKeys keys => exact follows_changeKeys hvalid hreports keys

end Writers

/-! ## Runs -/

theorem isValid_start (keys : KeyStore) : (Account.start keys).IsValid where
  names := List.nodup_nil
  noted := fun _ hparameter => absurd hparameter List.not_mem_nil
  stored := nofun

theorem reportsStored_start (cipher : Cipher) (keys : KeyStore) :
    ReportsStored cipher (Account.start keys) :=
  (reportsStored_iff (isValid_start keys)).mpr fun _ hparameter =>
    absurd hparameter List.not_mem_nil

/-- The readers report what was stored last exactly along the runs in which a value that is
stored with a key is empty, and one without a key has a type that is not encrypted. -/
theorem reportsStored_iff_heeded (cipher : Cipher) (keys : KeyStore) (operations : List Operation) :
    Runs.Always (Account.step cipher) (ReportsStored cipher) operations (Account.start keys) ↔
      Runs.Heeded (Account.step cipher) (Heeds cipher) operations (Account.start keys) := by
  refine @Runs.always_iff_heeded_of_step _ _ (Account.step cipher) (ReportsStored cipher)
    Account.IsValid (Heeds cipher) _ ?_ operations (isValid_start keys)
    (reportsStored_start cipher keys)
  exact fun account operation hvalid hreports => follows_step hvalid hreports operation

def aesKey : Kms.Key := { keyId := "k" }

def aesKeys : KeyStore := ⟨[aesKey], by decide⟩

/-- The value of a parameter with a key is returned in the encoding that it was sent to the key
service in. -/
theorem not_reportsStored_keyed : ¬ ∀ (cipher : Cipher), cipher.IsLawful → ∀ (keys : KeyStore)
    (operations : List Operation), Runs.Always (Account.step cipher) (ReportsStored cipher)
      operations (Account.start keys) := by
  intro hclaim
  have hreports := (hclaim sampleCipher isLawful_sampleCipher aesKeys
    [.putParameter { name := "p", value := ascii "v", type := .secureString, kmsKeyArn := "k" }
      0]).last
  have hread := (hreports.reports "p" ⟨ascii "v", 1⟩ (by decide)).getParameterCounter
  exact absurd hread (by decide)

end AwsMock.Ssm
