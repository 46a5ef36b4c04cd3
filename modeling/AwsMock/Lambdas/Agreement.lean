import AwsMock.Lambdas.Repositories

/-! # When the two stores hold the same

The stores hold the same functions and results as long as no result is deleted, a function keeps
its runtime and mean durations are whole numbers.
-/

namespace AwsMock.Lambdas.Repositories

open Foundation

section Definitions

/-- The same functions and results, in some order, and an ARN for every function. -/
structure Agrees (stores : Stores) : Prop where
  lambdas : (stores.memory.lambdas.map Prod.snd).Perm stores.mongo.lambdas
  results : stores.memory.results.Perm stores.mongo.results
  memoryArns : (stores.memory.lambdas.map fun entry => entry.2.arn).Nodup
  mongoArns : (stores.mongo.lambdas.map Lambda.arn).Nodup

structure Removes (asked : Entry LambdaResult → Bool) (stores next : Stores) : Prop where
  memoryLambdas : next.memory.lambdas = stores.memory.lambdas
  mongoLambdas : next.mongo.lambdas = stores.mongo.lambdas
  memoryResults : next.memory.results = stores.memory.results.filter fun entry => !asked entry
  mongoResults : next.mongo.results = stores.mongo.results.filter fun entry => !asked entry

def DeletesResults (stores : Stores) : Operation → Prop
  | .deleteResultsCounter oid =>
    Removes (fun entry => entry.1 = oid) stores (step stores (.deleteResultsCounter oid))
  | .deleteResultsCounters lambdaArn =>
    Removes (fun entry => entry.2.lambdaArn = lambdaArn) stores
      (step stores (.deleteResultsCounters lambdaArn))
  | _ => True

/-- Stored functions with the name have the runtime too, and others have another ARN. -/
def Fits (lambdas : List (Entry Lambda)) (lambda : Lambda) : Prop :=
  truncate lambda.avgDuration = lambda.avgDuration ∧ ∀ entry ∈ lambdas,
    if entry.2.name = lambda.name then entry.2.runtime = lambda.runtime
    else entry.2.arn ≠ lambda.arn

instance (lambdas : List (Entry Lambda)) (lambda : Lambda) : Decidable (Fits lambdas lambda) :=
  inferInstanceAs (Decidable (_ ∧ _))

/-- Functions keep their runtimes, durations are whole numbers, and what is deleted as a result
is neither a result nor a function. -/
def Heeds (stores : Stores) : Operation → Prop
  | .createOrUpdateLambda lambda _ _ => Fits stores.memory.lambdas lambda
  | .updateLambda lambda =>
    stores.memory.lambdaExists lambda = true → Fits stores.memory.lambdas lambda
  | .updateLambdaCounters name runtime _ avgDuration =>
    (∃ entry ∈ stores.memory.lambdas, entry.2.Is name runtime) → truncate avgDuration = avgDuration
  | .deleteResultsCounter oid =>
    oid ∉ stores.memory.results.map Prod.fst ∧ oid ∉ stores.memory.lambdas.map Prod.fst
  | .deleteResultsCounters lambdaArn =>
    (∀ entry ∈ stores.memory.results, entry.2.lambdaArn ≠ lambdaArn) ∧
      ∀ entry ∈ stores.memory.lambdas, entry.2.arn ≠ lambdaArn
  | .addLambdaInstance _ _ _ | .updateLambdaInstance _ _ _ | .createLambdaResult _ _ _
  | .deleteLambda _ => True

instance (stores : Stores) : ∀ operation, Decidable (Heeds stores operation)
  | .createOrUpdateLambda _ _ _ => inferInstanceAs (Decidable (Fits _ _))
  | .updateLambda lambda => inferInstanceAs (Decidable (_ = true → Fits _ lambda))
  | .updateLambdaCounters name runtime _ avgDuration =>
    inferInstanceAs (Decidable ((∃ entry ∈ stores.memory.lambdas, entry.2.Is name runtime) →
      truncate avgDuration = avgDuration))
  | .deleteResultsCounter _ => inferInstanceAs (Decidable (_ ∉ _ ∧ _ ∉ _))
  | .deleteResultsCounters lambdaArn =>
    inferInstanceAs (Decidable ((∀ entry ∈ stores.memory.results,
      entry.2.lambdaArn ≠ lambdaArn) ∧ ∀ entry ∈ stores.memory.lambdas, entry.2.arn ≠ lambdaArn))
  | .addLambdaInstance _ _ _ | .updateLambdaInstance _ _ _ | .createLambdaResult _ _ _
  | .deleteLambda _ => isTrue trivial

/-- The same functions and results, and different names and ARNs. -/
structure Related (stores : Stores) : Prop where
  lambdas : (stores.memory.lambdas.map Prod.snd).Perm stores.mongo.lambdas
  results : stores.memory.results.Perm stores.mongo.results
  names : ((stores.memory.lambdas.map Prod.snd).map Lambda.name).Nodup
  arns : ((stores.memory.lambdas.map Prod.snd).map Lambda.arn).Nodup

end Definitions

section Steps

variable {stores : Stores}

theorem Related.agrees (hrelated : Related stores) : Agrees stores where
  lambdas := hrelated.lambdas
  results := hrelated.results
  memoryArns := by
    have harns := hrelated.arns
    rw [List.map_map] at harns
    exact harns
  mongoArns := (hrelated.lambdas.map Lambda.arn).nodup_iff.mp hrelated.arns

theorem perm_insert {α : Type} (place : Nat) (entry : Entry α) (entries : List (Entry α)) :
    (MemoryRepository.insert place entry entries).Perm (entry :: entries) := by
  refine List.perm_middle.trans ?_
  rw [List.take_append_drop]

theorem rewriteFirst_lambdas {lambdas : List Lambda} {name : Name}
    (hnames : (lambdas.map Lambda.name).Nodup) {select : Lambda → Bool}
    (hselect : ∀ lambda, select lambda = true → lambda.name = name) (edit : Lambda → Lambda) :
    rewriteFirst select edit lambdas = rewriteWhere select edit lambdas :=
  rewriteFirst_eq_rewriteWhere_of_key hnames hselect edit

theorem map_snd_rewriteFirst (select : Lambda → Bool) (edit : Lambda → Lambda)
    (entries : List (Entry Lambda)) :
    (rewriteFirst (fun entry => select entry.2) (fun entry => (entry.1, edit entry.2))
      entries).map Prod.snd = rewriteFirst select edit (entries.map Prod.snd) :=
  map_rewriteFirst (fun _ _ => rfl) fun _ _ _ => rfl

theorem related_edit (hrelated : Related stores) {name : Name} (select : Lambda → Bool)
    (edit : Lambda → Lambda) {select' : Lambda → Bool} {edit' : Lambda → Lambda}
    (hselect : ∀ lambda, select lambda = true → lambda.name = name)
    (hselect' : ∀ lambda, select' lambda = true → lambda.name = name)
    (hsame : ∀ lambda ∈ stores.memory.lambdas.map Prod.snd,
      (if select lambda then edit lambda else lambda) =
        if select' lambda then edit' lambda else lambda)
    (hname : ∀ lambda, select lambda = true → (edit lambda).name = lambda.name)
    (harns : ((rewriteWhere select edit (stores.memory.lambdas.map Prod.snd)).map
      Lambda.arn).Nodup) :
    Related
      { memory := { stores.memory with
          lambdas := rewriteFirst (fun entry => select entry.2)
            (fun entry => (entry.1, edit entry.2)) stores.memory.lambdas }
        mongo := { stores.mongo with
          lambdas := rewriteFirst select' edit' stores.mongo.lambdas } } := by
  have hmongo := (hrelated.lambdas.map Lambda.name).nodup_iff.mp hrelated.names
  refine ⟨?_, hrelated.results, ?_, ?_⟩
  · rw [map_snd_rewriteFirst, rewriteFirst_lambdas hrelated.names hselect,
      rewriteFirst_lambdas hmongo hselect']
    refine (List.Perm.of_eq (List.map_congr_left hsame)).trans ?_
    exact hrelated.lambdas.map _
  · rw [map_snd_rewriteFirst, rewriteFirst_lambdas hrelated.names hselect,
      map_rewriteWhere_of_preserved Lambda.name fun lambda _ => hname lambda]
    exact hrelated.names
  · rw [map_snd_rewriteFirst, rewriteFirst_lambdas hrelated.names hselect]
    exact harns

theorem related_change (hrelated : Related stores) (name : Name) (runtime : String)
    {edit edit' : Lambda → Lambda} (hname : ∀ lambda, (edit lambda).name = lambda.name)
    (harn : ∀ lambda, (edit lambda).arn = lambda.arn) {select' : Lambda → Bool}
    (hselect' : ∀ lambda, select' lambda = true → lambda.Is name runtime)
    (hsame : ∀ lambda ∈ stores.memory.lambdas.map Prod.snd, lambda.Is name runtime →
      edit lambda = if select' lambda then edit' lambda else lambda) :
    Related ⟨stores.memory.change name runtime edit,
      { stores.mongo with lambdas := rewriteFirst select' edit' stores.mongo.lambdas }⟩ := by
  refine related_edit hrelated (fun lambda => lambda.Is name runtime) edit
    (fun lambda hselect => (of_decide_eq_true hselect).1)
    (fun lambda hselect => (hselect' lambda hselect).1) ?_ (fun lambda _ => hname lambda) ?_
  · intro lambda hlambda
    split
    · next hselect => exact hsame lambda hlambda (of_decide_eq_true hselect)
    · next hselect =>
      rw [if_neg fun hother => hselect (decide_eq_true (hselect' lambda hother))]
  · rw [map_rewriteWhere_of_preserved Lambda.arn fun lambda _ _ => harn lambda]
    exact hrelated.arns

variable {lambda : Lambda}

theorem setInstance_of_none {instance' : Instance}
    (hnone : (lambda.instances.any fun i => i.instanceId = instance'.instanceId) = false) :
    lambda.setInstance instance' = lambda := by
  rw [Lambda.setInstance, rewriteFirst_of_none]
  exact fun i hi => Bool.eq_false_iff.mpr (List.any_eq_false.mp hnone i hi)

theorem nodup_arns_updateLambda (hrelated : Related stores)
    (hfits : Fits stores.memory.lambdas lambda) :
    ((rewriteWhere (fun other => other.name = lambda.name) (fun _ => lambda)
      (stores.memory.lambdas.map Prod.snd)).map Lambda.arn).Nodup := by
  rw [rewriteWhere, List.Nodup, List.pairwise_map, List.pairwise_map]
  have hboth := (List.pairwise_map.mp hrelated.names).and (List.pairwise_map.mp hrelated.arns)
  refine hboth.imp_of_mem ?_
  have hother {other : Lambda} (hmem : other ∈ stores.memory.lambdas.map Prod.snd)
      (hne : other.name ≠ lambda.name) : other.arn ≠ lambda.arn := by
    obtain ⟨entry, hentry, rfl⟩ := List.mem_map.mp hmem
    have hentry := hfits.2 entry hentry
    rw [if_neg hne] at hentry
    exact hentry
  rintro first second hfirst hsecond ⟨hnames, harns⟩
  by_cases hname : first.name = lambda.name
  · have hname' : second.name ≠ lambda.name := fun heq => hnames (hname.trans heq.symm)
    rw [if_pos (decide_eq_true hname), if_neg (by simpa using hname')]
    exact (hother hsecond hname').symm
  · rw [if_neg (by simpa using hname)]
    split
    · exact hother hfirst hname
    · exact harns

theorem related_updateLambda (hrelated : Related stores)
    (hfits : Fits stores.memory.lambdas lambda) :
    Related ⟨stores.memory.updateLambda lambda, stores.mongo.updateLambda lambda⟩ := by
  have hdocument : lambda.toDocument = lambda := by
    rw [Lambda.toDocument, hfits.1]
  refine related_edit hrelated (fun other => other.name = lambda.name) (fun _ => lambda)
    (fun other hselect => of_decide_eq_true hselect)
    (fun other hselect => (of_decide_eq_true hselect).1) ?_
    (fun other hselect => (of_decide_eq_true hselect).symm)
    (nodup_arns_updateLambda hrelated hfits)
  intro other hother
  obtain ⟨entry, hentry, rfl⟩ := List.mem_map.mp hother
  have hentry := hfits.2 entry hentry
  rw [hdocument]
  by_cases hname : entry.2.name = lambda.name
  · rw [if_pos hname] at hentry
    rw [if_pos (decide_eq_true hname), if_pos (decide_eq_true ⟨hname, hentry⟩)]
  · rw [if_neg (by simpa using hname), if_neg (by simpa using fun his => hname his.1)]

theorem lambdaExists_iff :
    stores.memory.lambdaExists lambda = true ↔
      ∃ entry ∈ stores.memory.lambdas, entry.2.name = lambda.name := by
  rw [MemoryRepository.lambdaExists, List.any_eq_true]
  exact exists_congr fun entry => and_congr_right fun _ => decide_eq_true_iff

theorem mongo_lambdaExists (hrelated : Related stores) (hfits : Fits stores.memory.lambdas lambda) :
    stores.mongo.lambdaExists lambda = stores.memory.lambdaExists lambda := by
  rw [Bool.eq_iff_iff, lambdaExists_iff, MongoRepository.lambdaExists, List.any_eq_true]
  constructor
  · rintro ⟨other, hother, his⟩
    obtain ⟨entry, hentry, rfl⟩ := List.mem_map.mp (hrelated.lambdas.mem_iff.mpr hother)
    exact ⟨entry, hentry, (of_decide_eq_true his).1⟩
  · rintro ⟨entry, hentry, hname⟩
    refine ⟨entry.2, hrelated.lambdas.mem_iff.mp (List.mem_map_of_mem hentry), ?_⟩
    have hruntime := hfits.2 entry hentry
    rw [if_pos hname] at hruntime
    exact decide_eq_true ⟨hname, hruntime⟩

theorem related_createLambda {oid : String} {place : Nat}
    (hrelated : Related stores) (hfits : Fits stores.memory.lambdas lambda)
    (hnew : stores.memory.lambdaExists lambda = false) :
    Related ⟨stores.memory.createLambda lambda oid place, stores.mongo.createLambda lambda⟩ := by
  have hdocument : lambda.toDocument = lambda := by
    rw [Lambda.toDocument, hfits.1]
  have hperm : ((stores.memory.createLambda lambda oid place).lambdas.map Prod.snd).Perm
      (lambda :: stores.memory.lambdas.map Prod.snd) :=
    (perm_insert place (oid, lambda) stores.memory.lambdas).map Prod.snd
  have hname : ∀ entry ∈ stores.memory.lambdas, entry.2.name ≠ lambda.name := by
    intro entry hentry heq
    have hexists := lambdaExists_iff.mpr ⟨entry, hentry, heq⟩
    rw [hnew] at hexists
    cases hexists
  refine ⟨hperm.trans ?_, hrelated.results, ?_, ?_⟩
  · change List.Perm _ (stores.mongo.lambdas ++ [lambda.toDocument])
    rw [hdocument]
    exact (hrelated.lambdas.cons lambda).trans (@List.perm_append_comm _ [lambda] _)
  · rw [(hperm.map Lambda.name).nodup_iff, List.map_cons, List.nodup_cons]
    refine ⟨?_, hrelated.names⟩
    intro hmem
    obtain ⟨other, hother, heq⟩ := List.mem_map.mp hmem
    obtain ⟨entry, hentry, rfl⟩ := List.mem_map.mp hother
    exact hname entry hentry heq
  · rw [(hperm.map Lambda.arn).nodup_iff, List.map_cons, List.nodup_cons]
    refine ⟨?_, hrelated.arns⟩
    intro hmem
    obtain ⟨other, hother, heq⟩ := List.mem_map.mp hmem
    obtain ⟨entry, hentry, rfl⟩ := List.mem_map.mp hother
    have hentry' := hfits.2 entry hentry
    rw [if_neg (hname entry hentry)] at hentry'
    exact hentry' heq

theorem related_filter (hrelated : Related stores) (keeps : Lambda → Bool) :
    Related
      { memory := { stores.memory with
          lambdas := stores.memory.lambdas.filter fun entry => keeps entry.2 }
        mongo := { stores.mongo with lambdas := stores.mongo.lambdas.filter keeps } } := by
  have hcommute : (stores.memory.lambdas.filter fun entry => keeps entry.2).map Prod.snd =
      (stores.memory.lambdas.map Prod.snd).filter keeps := by
    rw [List.filter_map]
    rfl
  refine ⟨?_, hrelated.results, ?_, ?_⟩
  · rw [hcommute]
    exact hrelated.lambdas.filter keeps
  · rw [hcommute]
    exact (List.Sublist.map _ List.filter_sublist).nodup hrelated.names
  · rw [hcommute]
    exact (List.Sublist.map _ List.filter_sublist).nodup hrelated.arns

theorem removes_none {asked : Entry LambdaResult → Bool} {next : Stores}
    (hrelated : Related stores) (hnone : ∀ entry ∈ stores.memory.results, asked entry = false)
    (hmemory : next.memory = stores.memory) (hmongo : next.mongo = stores.mongo) :
    Removes asked stores next := by
  have hnone' : ∀ entry ∈ stores.mongo.results, asked entry = false :=
    fun entry hentry => hnone entry (hrelated.results.mem_iff.mpr hentry)
  refine ⟨by rw [hmemory], by rw [hmongo], ?_, ?_⟩
  · rw [hmemory, List.filter_eq_self.mpr fun entry hentry => by rw [hnone entry hentry]; rfl]
  · rw [hmongo, List.filter_eq_self.mpr fun entry hentry => by rw [hnone' entry hentry]; rfl]

theorem step_deleteResultsCounter {oid : String} (hrelated : Related stores)
    (hresults : oid ∉ stores.memory.results.map Prod.fst)
    (hlambdas : oid ∉ stores.memory.lambdas.map Prod.fst) :
    step stores (.deleteResultsCounter oid) = stores := by
  obtain ⟨⟨lambdas, results⟩, ⟨documents, results'⟩⟩ := stores
  change Stores.mk ⟨lambdas.filter _, results⟩ ⟨documents, results'.eraseP _⟩ = _
  rw [List.filter_eq_self.mpr, List.eraseP_of_forall_not]
  · intro entry hentry heq
    exact hresults (of_decide_eq_true heq ▸
      List.mem_map_of_mem (hrelated.results.mem_iff.mpr hentry))
  · intro entry hentry
    exact decide_eq_true fun heq => hlambdas (heq ▸ List.mem_map_of_mem hentry)

theorem step_deleteResultsCounters {lambdaArn : String} (hrelated : Related stores)
    (hresults : ∀ entry ∈ stores.memory.results, entry.2.lambdaArn ≠ lambdaArn)
    (hlambdas : ∀ entry ∈ stores.memory.lambdas, entry.2.arn ≠ lambdaArn) :
    step stores (.deleteResultsCounters lambdaArn) = stores := by
  obtain ⟨⟨lambdas, results⟩, ⟨documents, results'⟩⟩ := stores
  change Stores.mk ⟨lambdas.filter _, results⟩ ⟨documents, results'.filter _⟩ = _
  rw [List.filter_eq_self.mpr, List.filter_eq_self.mpr]
  · exact fun entry hentry =>
      decide_eq_true (hresults entry (hrelated.results.mem_iff.mpr hentry))
  · exact fun entry hentry => decide_eq_true (hlambdas entry hentry)

theorem related_step {operation : Operation} (hrelated : Related stores)
    (hheeds : Heeds stores operation) : Related (step stores operation) := by
  cases operation with
  | createOrUpdateLambda lambda oid place =>
    have hexists := mongo_lambdaExists hrelated hheeds
    change Related ⟨stores.memory.createOrUpdateLambda lambda oid place,
      stores.mongo.createOrUpdateLambda lambda⟩
    rw [MemoryRepository.createOrUpdateLambda, MongoRepository.createOrUpdateLambda, hexists]
    cases hstored : stores.memory.lambdaExists lambda with
    | true => exact related_updateLambda hrelated hheeds
    | false => exact related_createLambda hrelated hheeds hstored
  | updateLambda lambda =>
    by_cases hexists : stores.memory.lambdaExists lambda = true
    · exact related_updateLambda hrelated (hheeds hexists)
    · have hnone : ∀ other ∈ stores.memory.lambdas.map Prod.snd, other.name ≠ lambda.name := by
        intro other hother heq
        obtain ⟨entry, hentry, rfl⟩ := List.mem_map.mp hother
        exact hexists (lambdaExists_iff.mpr ⟨entry, hentry, heq⟩)
      have hmemory : stores.memory.updateLambda lambda = stores.memory := by
        rw [MemoryRepository.updateLambda, rewriteFirst_of_none]
        exact fun entry hentry => decide_eq_false (hnone _ (List.mem_map_of_mem hentry))
      have hmongo : stores.mongo.updateLambda lambda = stores.mongo := by
        rw [MongoRepository.updateLambda, MongoRepository.change, rewriteFirst_of_none]
        exact fun other hother => decide_eq_false fun his =>
          hnone other (hrelated.lambdas.mem_iff.mpr hother) his.1
      change Related ⟨stores.memory.updateLambda lambda, stores.mongo.updateLambda lambda⟩
      rw [hmemory, hmongo]
      exact hrelated
  | addLambdaInstance name runtime i =>
    refine @related_change stores hrelated name runtime (fun lambda => lambda.addInstance i)
      (fun lambda => lambda.addInstance i) ?_ ?_ (fun lambda => lambda.Is name runtime) ?_ ?_
    · exact fun _ => rfl
    · exact fun _ => rfl
    · exact fun lambda hselect => of_decide_eq_true hselect
    · exact fun lambda _ his => by rw [if_pos (decide_eq_true his)]
  | updateLambdaInstance name runtime i =>
    refine @related_change stores hrelated name runtime (fun lambda => lambda.setInstance i)
      (fun lambda => lambda.setInstance i) ?_ ?_ (fun lambda =>
          lambda.Is name runtime && lambda.instances.any fun j => j.instanceId = i.instanceId) ?_ ?_
    · exact fun _ => rfl
    · exact fun _ => rfl
    · exact fun lambda hselect => of_decide_eq_true (Bool.and_eq_true _ _ ▸ hselect).1
    · intro lambda _ his
      rw [decide_eq_true his, Bool.true_and]
      split
      · rfl
      · next hnone => rw [setInstance_of_none (Bool.eq_false_iff.mpr hnone)]
  | updateLambdaCounters name runtime invocations avgDuration =>
    refine @related_change stores hrelated name runtime (fun lambda => lambda.setCounters invocations avgDuration)
      (fun lambda => lambda.setCounters invocations (truncate avgDuration)) ?_ ?_ (fun lambda => lambda.Is name runtime) ?_ ?_
    · exact fun _ => rfl
    · exact fun _ => rfl
    · exact fun lambda hselect => of_decide_eq_true hselect
    · intro lambda hlambda his
      obtain ⟨entry, hentry, rfl⟩ := List.mem_map.mp hlambda
      rw [if_pos (decide_eq_true his), hheeds ⟨entry, hentry, his⟩]
  | createLambdaResult result oid place =>
    refine ⟨hrelated.lambdas, ?_, hrelated.names, hrelated.arns⟩
    refine (perm_insert place (oid, result) stores.memory.results).trans ?_
    exact (hrelated.results.cons _).trans (@List.perm_append_comm _ [_] _)
  | deleteResultsCounter oid =>
    rw [step_deleteResultsCounter hrelated hheeds.1 hheeds.2]
    exact hrelated
  | deleteResultsCounters lambdaArn =>
    rw [step_deleteResultsCounters hrelated hheeds.1 hheeds.2]
    exact hrelated
  | deleteLambda functionName =>
    exact related_filter hrelated fun lambda => lambda.function ≠ functionName

theorem deletesResults_of_heeds {operation : Operation} (hrelated : Related stores)
    (hheeds : Heeds stores operation) : DeletesResults stores operation := by
  cases operation with
  | deleteResultsCounter oid =>
    have hstep := step_deleteResultsCounter hrelated hheeds.1 hheeds.2
    refine removes_none hrelated (fun entry hentry => decide_eq_false fun heq => ?_)
      (by rw [hstep]) (by rw [hstep])
    exact hheeds.1 (heq ▸ List.mem_map_of_mem hentry)
  | deleteResultsCounters lambdaArn =>
    have hstep := step_deleteResultsCounters hrelated hheeds.1 hheeds.2
    exact removes_none hrelated (fun entry hentry => decide_eq_false (hheeds.1 entry hentry))
      (by rw [hstep]) (by rw [hstep])
  | _ => trivial

theorem related_nil : Related {} :=
  ⟨List.Perm.refl _, List.Perm.refl _, List.nodup_nil, List.nodup_nil⟩

end Steps

def orders : Lambda :=
  { region := "eu", function := "orders", runtime := "java21", arn := "arn:orders" }

end AwsMock.Lambdas.Repositories
