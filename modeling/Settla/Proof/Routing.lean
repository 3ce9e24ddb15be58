import Settla.Node.Messaging

/-!
# Messages and their handlers

Every subject is received by just one consumer (`receivers_eq`): the worker of its prefix, in the
partition of the tenant. Results go where the commands of the same prefix go, not to the transfer worker.
-/

namespace Settla.Node

open Lib List

/-! ## Words of subjects and patterns -/

def SubjectPrefix.words (pre : SubjectPrefix) : List (List Char) := tokens pre.string.toList

def SubjectPrefix.all : List SubjectPrefix :=
  [.transfer, .provider, .ledger, .treasury, .blockchain, .webhook, .providerInbound, .deposit, .email, .bankDeposit]

theorem SubjectPrefix.mem_all (pre : SubjectPrefix) : pre ∈ SubjectPrefix.all := by
  cases pre <;> decide

def SubjectPrefix.everywhere (pre : SubjectPrefix) : String := pre.string ++ ".partition.*.>"

def otherWords : List (List (List Char)) := [["settla".toList, "inbound".toList], ["settla".toList, "dlq".toList]]

/-- No word is a wildcard, and two prefixes, or a prefix and another pattern, differ in a word
before either ends. -/
theorem prefix_texts : ∀ pre ∈ SubjectPrefix.all,
    (∀ w ∈ pre.words, Plain w) ∧
      (∀ pre' ∈ SubjectPrefix.all, pre ≠ pre' → Apart pre.words pre'.words) ∧
      (∀ us ∈ otherWords, (∀ w ∈ us, Plain w) ∧ Apart us pre.words) ∧
      tokens pre.everywhere.toList = pre.words ++ ["partition".toList, ['*'], ['>']] := by
  decide +kernel

theorem words_plain (pre : SubjectPrefix) : ∀ w ∈ pre.words, Plain w := (prefix_texts pre pre.mem_all).1

theorem partition_tokens (pre : SubjectPrefix) (n : ℕ) (rest : String) :
    tokens (pre.string ++ ".partition." ++ toString n ++ "." ++ rest).toList =
      pre.words ++ "partition".toList :: digits n :: tokens rest.toList := by
  have hword : ".partition.".toList = '.' :: ("partition".toList ++ ['.']) := by rfl
  have hdot : ".".toList = ['.'] := by rfl
  have hlist : (pre.string ++ ".partition." ++ toString n ++ "." ++ rest).toList =
      pre.string.toList ++ '.' :: ("partition".toList ++ '.' :: (digits n ++ '.' :: rest.toList)) := by
    simp [String.toList_append, hword, hdot, digits]
  rw [hlist, tokens_dot, tokens_dot, tokens_dot, tokens_word fun h => absurd (isDigit_of_mem_digits h) (by decide),
    tokens_word (by simp : '.' ∉ "partition".toList)]
  rfl

theorem match_partition (pre pre' : SubjectPrefix) {x y : List Char} (hx : x ≠ ['>']) {ts : List (List Char)}
    (hts : ts ≠ []) :
    matchTokens (pre'.words ++ ["partition".toList, x, ['>']]) (pre.words ++ "partition".toList :: y :: ts) =
      (pre' = pre && (x = ['*'] || x = y)) := by
  by_cases h : pre' = pre
  · subst h
    obtain ⟨t, ts, rfl⟩ := exists_cons_of_ne_nil hts
    have hp : Plain "partition".toList := by decide
    rw [matchTokens_append (words_plain pre'), matchTokens_plain hp]
    simp [matchTokens, hx]
  · rw [matchTokens_apart (words_plain pre') ((prefix_texts pre' pre'.mem_all).2.1 pre pre.mem_all h)]
    simp [h]

theorem filter_matches (pre pre' : SubjectPrefix) (p q : ℕ) (eventType : String) :
    subjectMatches (streamPartitionFilter pre' q) (partitionSubject pre p eventType) = (pre' = pre && q = p) := by
  have hfilter : tokens (streamPartitionFilter pre' q).toList =
      pre'.words ++ ["partition".toList, digits q, ['>']] := by
    have hrest := partition_tokens pre' q ">"
    have hsame : streamPartitionFilter pre' q = pre'.string ++ ".partition." ++ toString q ++ "." ++ ">" := by
      have hdot : ".>" = "." ++ ">" := by rfl
      rw [streamPartitionFilter, hdot, ← String.append_assoc]
    rw [hsame, hrest]
    rfl
  rw [subjectMatches, hfilter, partitionSubject, partition_tokens,
    match_partition pre pre' (digits_plain q).2 (tokens_ne_nil _)]
  by_cases hq : q = p
  · simp [hq]
  · have hne : digits q ≠ digits p := fun h => hq (digits_injective h)
    simp [hq, hne, (digits_plain q).1]

theorem everywhere_matches (pre pre' : SubjectPrefix) (p : ℕ) (eventType : String) :
    subjectMatches pre'.everywhere (partitionSubject pre p eventType) = decide (pre' = pre) := by
  rw [subjectMatches, (prefix_texts pre' pre'.mem_all).2.2.2, partitionSubject, partition_tokens,
    match_partition pre pre' (by decide) (tokens_ne_nil _)]
  simp

/-! ## Consumers -/

variable {pre : SubjectPrefix} {p : ℕ} {eventType : String}

theorem receives_partition {w : WorkerKind} {s : Stream} {pre' : SubjectPrefix} {q : ℕ} (hs : pre'.everywhere ∈ s.subjects) :
    Consumer.receives (partitionSubject pre p eventType) ⟨w, s, some q, some (streamPartitionFilter pre' q)⟩ =
      (pre' = pre && q = p) := by
  rw [Consumer.receives, Option.all_some, filter_matches]
  by_cases h : pre' = pre
  · have hany : (s.subjects.any (subjectMatches · (partitionSubject pre p eventType))) = true := by
      refine any_eq_true.2 ⟨pre'.everywhere, hs, ?_⟩
      rw [everywhere_matches]
      exact decide_eq_true h
    rw [hany, Bool.true_and]
  · simp [h]

def consumerOf (pre : SubjectPrefix) (p : ℕ) : Consumer :=
  match pre with
  | .transfer => ⟨.transfer, .transfers, some p, some (streamPartitionFilter .transfer p)⟩
  | .provider => ⟨.provider, .providers, some p, some (streamPartitionFilter .provider p)⟩
  | .ledger => ⟨.ledger, .ledger, some p, some (streamPartitionFilter .ledger p)⟩
  | .treasury => ⟨.treasury, .treasury, none, none⟩
  | .blockchain => ⟨.blockchain, .blockchain, some p, some (streamPartitionFilter .blockchain p)⟩
  | .webhook => ⟨.webhook, .webhooks, some p, some (streamPartitionFilter .webhook p)⟩
  | .providerInbound => ⟨.inboundWebhook, .providerWebhooks, some p, some (streamPartitionFilter .providerInbound p)⟩
  | .deposit => ⟨.deposit, .cryptoDeposits, some p, some (streamPartitionFilter .deposit p)⟩
  | .email => ⟨.email, .emails, some p, some (streamPartitionFilter .email p)⟩
  | .bankDeposit => ⟨.bankDeposit, .bankDeposits, some p, some (streamPartitionFilter .bankDeposit p)⟩

theorem filter_partition (q : ℕ) :
    (partitionConsumers q).filter (Consumer.receives (partitionSubject pre p eventType)) =
      if q = p ∧ pre ≠ .treasury then [consumerOf pre p] else [] := by
  unfold partitionConsumers
  simp only [filter_cons, filter_nil]
  have hstreams : SubjectPrefix.transfer.everywhere ∈ Stream.transfers.subjects ∧
      SubjectPrefix.ledger.everywhere ∈ Stream.ledger.subjects ∧
      SubjectPrefix.provider.everywhere ∈ Stream.providers.subjects ∧
      SubjectPrefix.providerInbound.everywhere ∈ Stream.providerWebhooks.subjects ∧
      SubjectPrefix.blockchain.everywhere ∈ Stream.blockchain.subjects ∧
      SubjectPrefix.webhook.everywhere ∈ Stream.webhooks.subjects ∧
      SubjectPrefix.deposit.everywhere ∈ Stream.cryptoDeposits.subjects ∧
      SubjectPrefix.email.everywhere ∈ Stream.emails.subjects ∧
      SubjectPrefix.bankDeposit.everywhere ∈ Stream.bankDeposits.subjects := by
    simp [Stream.subjects, SubjectPrefix.everywhere, SubjectPrefix.string]
  obtain ⟨h1, h2, h3, h4, h5, h6, h7, h8, h9⟩ := hstreams
  rw [receives_partition h1, receives_partition h2, receives_partition h3, receives_partition h4,
    receives_partition h5, receives_partition h6, receives_partition h7, receives_partition h8, receives_partition h9]
  by_cases hq : q = p
  · subst hq
    cases pre <;> simp [consumerOf]
  · simp [hq]

theorem other_matches (pattern : String) (hpattern : pattern = "settla.inbound.bank.>" ∨ pattern = "settla.dlq.>") :
    subjectMatches pattern (partitionSubject pre p eventType) = false := by
  have hother := (prefix_texts pre pre.mem_all).2.2.1
  rw [subjectMatches, partitionSubject, partition_tokens]
  rcases hpattern with rfl | rfl
  · obtain ⟨hplain, hapart⟩ := hother _ mem_cons_self
    exact matchTokens_apart hplain hapart
  · obtain ⟨hplain, hapart⟩ := hother _ (mem_cons_of_mem _ mem_cons_self)
    exact matchTokens_apart hplain hapart

theorem filter_shared :
    [⟨.treasury, .treasury, none, none⟩, ⟨.bankDepositInbound, .bankDeposits, none, some "settla.inbound.bank.>"⟩,
      ⟨.dlqMonitor, .dlq, none, none⟩].filter (Consumer.receives (partitionSubject pre p eventType)) =
      if pre = .treasury then [consumerOf pre p] else [] := by
  have htreasury : Consumer.receives (partitionSubject pre p eventType) ⟨.treasury, .treasury, none, none⟩ =
      decide (SubjectPrefix.treasury = pre) := by
    have hsubjects : Stream.treasury.subjects = [SubjectPrefix.treasury.everywhere] := by
      simp [Stream.subjects, SubjectPrefix.everywhere, SubjectPrefix.string]
    rw [Consumer.receives, hsubjects, any_cons, any_nil, everywhere_matches]
    simp
  have hbank : Consumer.receives (partitionSubject pre p eventType)
      ⟨.bankDepositInbound, .bankDeposits, none, some "settla.inbound.bank.>"⟩ = false := by
    rw [Consumer.receives, Option.all_some, other_matches _ (.inl rfl), Bool.and_false]
  have hdlq : Consumer.receives (partitionSubject pre p eventType) ⟨.dlqMonitor, .dlq, none, none⟩ = false := by
    have hsubjects : Stream.dlq.subjects = ["settla.dlq.>"] := rfl
    rw [Consumer.receives, hsubjects, any_cons, any_nil, other_matches _ (.inr rfl)]
    rfl
  simp only [filter_cons, filter_nil, htreasury, hbank, hdlq]
  by_cases h : pre = .treasury
  · subst h
    rfl
  · simp [h, Ne.symm h]

variable {n : ℕ} {t : MessageType}

theorem flatMap_range {α : Type*} (x : α) (h : p < n) :
    (List.range n).flatMap (fun q => if q = p then [x] else []) = [x] := by
  induction n with
  | zero => omega
  | succ n ih =>
    rw [range_succ, flatMap_append, flatMap_singleton]
    by_cases hp : p = n
    · have hnone : (List.range n).flatMap (fun q => if q = p then [x] else []) = [] := by
        rw [flatMap_eq_nil_iff]
        intro q hq
        rw [if_neg]
        have := mem_range.1 hq
        omega
      rw [hnone, if_pos hp.symm, nil_append]
    · rw [ih (by omega), if_neg (Ne.symm hp), append_nil]

/-- **Every subject has one receiver**, the consumer of its prefix in its partition. -/
theorem receivers_eq (hp : p < n) :
    (consumers n).filter (Consumer.receives (partitionSubject pre p eventType)) = [consumerOf pre p] := by
  rw [consumers, filter_append, filter_shared, filter_flatMap]
  by_cases h : pre = .treasury
  · have hnone : (List.range n).flatMap (fun q =>
        (partitionConsumers q).filter (Consumer.receives (partitionSubject pre p eventType))) = [] := by
      rw [flatMap_eq_nil_iff]
      intro q _
      rw [filter_partition, if_neg fun hq => hq.2 h]
    rw [if_pos h, hnone, append_nil]
  · have hone : (fun q => (partitionConsumers q).filter (Consumer.receives (partitionSubject pre p eventType))) =
        fun q => if q = p then [consumerOf pre p] else [] := by
      funext q
      rw [filter_partition]
      simp [h]
    rw [if_neg h, hone, flatMap_range _ hp, nil_append]

/-! ## Types and handlers -/

theorem subject_eq (pre : SubjectPrefix) : pre.subject = tenantSubject pre := by
  cases pre <;> rfl

/-- The partition and the subject of a message. There are none just if the number of partitions is
zero in 32 bits. -/
theorem subjectForEventType_eq_some (eventType : String) (tenantID : UUID) (h : n % 2 ^ 32 ≠ 0) :
    ∃ p < n, tenantPartition tenantID n = some p ∧
      subjectForEventType eventType tenantID n =
        some (partitionSubject (subjectRoute eventType).1 p (subjectRoute eventType).2) := by
  have hp : tenantPartition tenantID n = some (fnv32a (toBytes 16 tenantID.toNat) % (n % 2 ^ 32)) := if_neg h
  refine ⟨_, ?_, hp, ?_⟩
  · have hlt := Nat.mod_lt (fnv32a (toBytes 16 tenantID.toNat)) (Nat.pos_of_ne_zero h)
    have hle := Nat.mod_le n (2 ^ 32)
    omega
  · rw [subjectForEventType, subject_eq, tenantSubject, hp]
    rfl

/-- **A message reaches a handler** just if there are partitions, and the worker of its
prefix has a case for it. -/
theorem reaches_iff_handles (eventType : String) (tenantID : UUID) (n : ℕ) :
    Reaches eventType tenantID n ↔
      n % 2 ^ 32 ≠ 0 ∧ (consumerOf (subjectRoute eventType).1 0).handles eventType = true := by
  -- the partition does not matter for the cases of the worker
  have hworker : ∀ (pre : SubjectPrefix) (p : ℕ),
      (consumerOf pre p).handles eventType = (consumerOf pre 0).handles eventType := by
    intro pre p
    cases pre <;> rfl
  constructor
  · rintro ⟨subject, p, c, hsubject, hp, hreceivers, -, hhandles⟩
    have hn : n % 2 ^ 32 ≠ 0 := by
      intro hzero
      rw [tenantPartition, hzero] at hp
      cases hp
    obtain ⟨q, hlt, -, hq⟩ := subjectForEventType_eq_some eventType tenantID hn
    obtain rfl := Option.some.inj (hq.symm.trans hsubject)
    rw [receivers_eq hlt] at hreceivers
    cases hreceivers
    exact ⟨hn, (hworker _ _).symm.trans hhandles⟩
  · rintro ⟨hn, hhandles⟩
    obtain ⟨p, hlt, hp, hsubject⟩ := subjectForEventType_eq_some eventType tenantID hn
    refine ⟨_, p, consumerOf (subjectRoute eventType).1 p, hsubject, hp, receivers_eq hlt, ?_,
      (hworker _ _).trans hhandles⟩
    cases (subjectRoute eventType).1 <;> simp [consumerOf]

def unheard : List MessageType := [.monitorAddress, .providerReverseOnRamp] ++ workerResults

theorem handles_awaited (ht : t ∈ awaited) :
    (consumerOf (subjectRoute t.string).1 0).handles t.string = decide (t ∉ unheard) := by
  have hall : ∀ t ∈ awaited,
      (consumerOf (subjectRoute t.string).1 0).handles t.string = decide (t ∉ unheard) := by decide +kernel
  exact hall t ht

/-- **The messages that reach their handler**, with any number of partitions (but a multiple of
2^32): all except the request to monitor an address, the planned reversal of an on-ramp and the
results for the transfer worker. -/
theorem reaches_iff {t : MessageType} (ht : t ∈ awaited) (tenantID : UUID) (numPartitions : ℕ) :
    Reaches t.string tenantID numPartitions ↔ numPartitions % 2 ^ 32 ≠ 0 ∧ t ∉ unheard := by
  rw [reaches_iff_handles, handles_awaited ht, decide_eq_true_iff]

theorem reaches_treasuryReserve : Reaches "treasury.reserve" 1 8 ∧ .intent .treasuryReserve ∈ awaited := by
  have hmem : MessageType.intent .treasuryReserve ∈ awaited := by decide
  exact ⟨(reaches_iff hmem 1 8).2 (by decide), hmem⟩

/-- **A failed reservation is not heard**: its result is received by the treasury worker itself,
which has no case for it; nor is there a handler for the address of a new session. -/
theorem results_unheard :
    (∀ t ∈ [MessageType.event .treasuryFailed, .monitorAddress], t ∈ awaited ∧ ¬ Reaches t.string 1 8) ∧
      ∃ subject, subjectForEventType "treasury.failed" 1 8 = some subject ∧
        (consumers 8).filter (Consumer.receives subject) = [⟨.treasury, .treasury, none, none⟩] := by
  have hall : ∀ t ∈ [MessageType.event .treasuryFailed, .monitorAddress], t ∈ awaited ∧ t ∈ unheard := by decide
  refine ⟨fun t ht => ⟨(hall t ht).1, ?_⟩, ?_⟩
  · rw [reaches_iff_handles, handles_awaited (hall t ht).1, decide_eq_true_iff]
    exact fun h => h.2 (hall t ht).2
  · obtain ⟨p, hlt, -, hsubject⟩ := subjectForEventType_eq_some "treasury.failed" 1 (n := 8) (by decide)
    have hroute : (subjectRoute "treasury.failed").1 = .treasury := by decide +kernel
    refine ⟨_, hsubject, ?_⟩
    rw [receivers_eq hlt, hroute]
    rfl

end Settla.Node
