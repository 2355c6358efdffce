import Mathlib
import ValidatorDays.Chart.Totals
import ValidatorDays.Proofs.Decimal.Value

namespace ValidatorDays

namespace Transaction

/-- Such transactions can be counted. -/
def Valid (tx : Transaction) : Prop :=
  (0 ≤ tx.kind ∧ tx.kind ≤ 4) ∧ (tx.status = 0 ∨ tx.status = 1)

instance (tx : Transaction) : Decidable tx.Valid := inferInstanceAs (Decidable (_ ∧ _))

def hasGasPrice (tx : Transaction) : Bool := tx.kind = 0 ∨ tx.kind = 1

/-- What is paid for a unit of gas, by whoever gets it. -/
def effectivePrice (tx : Transaction) (baseFee : Int) : Int :=
  if tx.hasGasPrice then tx.gasPrice.count
  else min tx.maxFeePerGas.count (baseFee + tx.maxPriorityFeePerGas.count)

end Transaction

theorem Pricing.ofKind?_eq_some {kind : Int} {pricing : Pricing}
    (priced : ofKind? kind = some pricing) :
    (0 ≤ kind ∧ kind ≤ 4) ∧ (pricing = .gasPrice ↔ kind = 0 ∨ kind = 1) := by
  unfold ofKind? at priced
  split_ifs at priced <;> cases priced <;> simp <;> omega

theorem Pricing.ofKind?_eq_none {kind : Int} (unpriced : ofKind? kind = none) :
    ¬ (0 ≤ kind ∧ kind ≤ 4) := by
  unfold ofKind? at unpriced
  split_ifs at unpriced
  omega

namespace BlockTotals

/-- A transaction with the base fee of its block. -/
abbrev Charge := Int × Transaction

def charges (blocks : List Block) : List Charge :=
  blocks.flatMap fun block => block.transactions.map (block.baseFeePerGas.count, ·)

/-- By how many micros the last block is behind the first. -/
def elapsed (blocks : List Block) : Int :=
  (blocks.head?.elim 0 (·.timestamp) - blocks.getLast?.elim 0 (·.timestamp)) * microsPerSecond

/-- The totals over so many charges, once the headers of so many blocks have been counted. -/
structure Accounts (charged : List Charge) (blocks : List Block) (t : BlockTotals) : Prop where
  blockCount : t.blockCount = blocks.length
  txCount : t.txCount = charged.length
  gasPriceTxCount : t.gasPriceTxCount = charged.countP (·.2.hasGasPrice)
  failedTxCount : t.failedTxCount = charged.countP (·.2.status = 0)
  gasUsed : t.gasUsed = .ofInt (charged.map fun c => c.2.gasUsed).sum
  failedGasUsed : t.failedGasUsed =
    .ofInt ((charged.filter (·.2.status = 0)).map fun c => c.2.gasUsed).sum
  gasLimit : t.gasLimit = .ofInt (blocks.map fun block => block.gasLimit).sum
  gasPrice : t.gasPrice =
    .ofInt ((charged.filter (·.2.hasGasPrice)).map fun c => c.2.gasPrice.count).sum
  burned : t.burned = .ofInt (charged.map fun c => c.1 * c.2.gasUsed).sum
  tips : t.tips = .ofInt (charged.map fun c => (c.2.effectivePrice c.1 - c.1) * c.2.gasUsed).sum
  blockTimeMicros : t.blockTimeMicros = elapsed blocks
  inRange : t.blockTimeMicros ∈ Bounds.int64
  previousTimestamp : t.previousTimestamp = blocks.getLast?.map (·.timestamp)

def withPrice (t : BlockTotals) (pricing : Pricing) (tx : Transaction) : BlockTotals :=
  match pricing with
  | .gasPrice => { t with
      gasPriceTxCount := t.gasPriceTxCount + 1
      gasPrice := t.gasPrice + tx.gasPrice.toDecimal }
  | .feeMarket => t

def withFailure (t : BlockTotals) (tx : Transaction) : BlockTotals :=
  { t with
    failedTxCount := t.failedTxCount + 1
    failedGasUsed := t.failedGasUsed + .ofInt tx.gasUsed }

def withFees (t : BlockTotals) (baseFee tip : Decimal) (tx : Transaction) : BlockTotals :=
  { t with
    txCount := t.txCount + 1
    burned := t.burned + baseFee * .ofInt tx.gasUsed
    tips := t.tips + tip * .ofInt tx.gasUsed
    gasUsed := t.gasUsed + .ofInt tx.gasUsed }

def withTransaction (t : BlockTotals) (pricing : Pricing) (baseFee : Decimal) (tx : Transaction) :
    BlockTotals :=
  let t := t.withPrice pricing tx
  (if tx.status = 0 then t.withFailure tx else t).withFees baseFee (tipPerGas pricing baseFee tx) tx

def gapTo (t : BlockTotals) (timestamp : Int) : Int :=
  t.previousTimestamp.elim 0 fun previous => (previous - timestamp) * microsPerSecond

def withHeader (t : BlockTotals) (block : Block) : BlockTotals :=
  { t with
    blockCount := t.blockCount + 1
    gasLimit := t.gasLimit + .ofInt block.gasLimit
    blockTimeMicros := t.blockTimeMicros + t.gapTo block.timestamp
    previousTimestamp := some block.timestamp }

/-- How counting ends: by a number out of range, by something that is not valid, or well. -/
inductive CountingEnds (valid : Prop) (counted : BlockTotals → Prop) : Checked Progress → Prop where
  | overflows : CountingEnds valid counted (.error .overflow)
  | breaks (invalid : ¬ valid) (t : BlockTotals) (e : StageError) :
      CountingEnds valid counted (.ok (t, some e))
  | counts {t : BlockTotals} (holds : valid) (well : counted t) :
      CountingEnds valid counted (.ok (t, none))

theorem CountingEnds.imp {valid validToo : Prop} {counted more : BlockTotals → Prop}
    {result : Checked Progress} (ends : CountingEnds valid counted result) (same : valid ↔ validToo)
    (next : ∀ t, counted t → more t) : CountingEnds validToo more result := by
  cases ends with
  | overflows => exact .overflows
  | breaks invalid t e => exact .breaks (mt same.mpr invalid) t e
  | counts holds well => exact .counts (same.mp holds) (next _ well)

section Count

variable (t : BlockTotals) (pricing : Pricing) (baseFee tip : Decimal) (block : Block)
  (tx : Transaction)

theorem countPrice_cases : t.countPrice pricing tx = .error .overflow ∨
    t.countPrice pricing tx = .ok (t.withPrice pricing tx) := by
  cases pricing with
  | gasPrice => exact Bounds.int64.check_then (t.gasPriceTxCount + 1) _
  | feeMarket => exact .inr rfl

theorem countFailure_cases : t.countFailure tx = .error .overflow ∨
    t.countFailure tx = .ok (t.withFailure tx) :=
  Bounds.int64.check_then (t.failedTxCount + 1) _

theorem countFees_cases : t.countFees baseFee tip tx = .error .overflow ∨
    t.countFees baseFee tip tx = .ok (t.withFees baseFee tip tx) :=
  Bounds.int64.check_then (t.txCount + 1) _

theorem countFees_ends {valid : Prop} {counted : BlockTotals → Prop} (holds : valid)
    (well : counted (t.withFees baseFee tip tx)) :
    CountingEnds valid counted (do return (← t.countFees baseFee tip tx, none)) := by
  obtain overflows | done := t.countFees_cases baseFee tip tx
  · rw [overflows]
    exact .overflows
  · rw [done]
    exact .counts holds well

theorem countGap_cases (inRange : t.blockTimeMicros ∈ Bounds.int64) (timestamp : Int) :
    t.countGap timestamp = .error .overflow ∨
    t.countGap timestamp = .ok (t.blockTimeMicros + t.gapTo timestamp) ∧
      t.blockTimeMicros + t.gapTo timestamp ∈ Bounds.int64 := by
  unfold countGap gapTo
  cases t.previousTimestamp with
  | none =>
    rw [Option.elim_none, Int.add_zero]
    exact .inr ⟨rfl, inRange⟩
  | some previous =>
    obtain fits | overflows := Bounds.int64.check_cases (previous - timestamp)
    · simp only [fits, Bind.bind, Except.bind]
      obtain fits | overflows := Bounds.int64.check_cases ((previous - timestamp) * microsPerSecond)
      · simp only [fits]
        exact (Bounds.check_cases _ _).symm.imp_right fun inside =>
          ⟨inside, (Bounds.check_eq_ok_iff.mp inside).1⟩
      · simp only [overflows]
        exact .inl trivial
    · simp only [overflows]
      exact .inl rfl

theorem addHeader_cases (inRange : t.blockTimeMicros ∈ Bounds.int64) :
    t.addHeader block = .error .overflow ∨ t.addHeader block = .ok (t.withHeader block) ∧
      (t.withHeader block).blockTimeMicros ∈ Bounds.int64 := by
  unfold addHeader
  obtain fits | overflows := Bounds.int64.check_cases (t.blockCount + 1)
  · simp only [fits, Bind.bind, Except.bind]
    obtain overflows | ⟨counted, inside⟩ := t.countGap_cases inRange block.timestamp
    · simp only [overflows]
      exact .inl trivial
    · simp only [counted]
      exact .inr ⟨rfl, inside⟩
  · simp only [overflows]
    exact .inl rfl

theorem addTransaction_ends : CountingEnds tx.Valid (fun u => ∃ pricing,
    Pricing.ofKind? tx.kind = some pricing ∧
      u = t.withTransaction pricing block.baseFeePerGas.toDecimal tx)
    (t.addTransaction block tx) := by
  unfold addTransaction
  cases priced : Pricing.ofKind? tx.kind with
  | none => exact .breaks (fun valid => Pricing.ofKind?_eq_none priced valid.1) _ _
  | some pricing =>
    have kind := (Pricing.ofKind?_eq_some priced).1
    obtain overflows | counted := t.countPrice_cases pricing tx
    · simp only [overflows]
      exact .overflows
    simp only [counted, Bind.bind, Except.bind]
    by_cases failed : tx.status = 0
    · simp only [if_pos failed]
      obtain overflows | counted := (t.withPrice pricing tx).countFailure_cases tx
      · simp only [overflows]
        exact .overflows
      · simp only [counted]
        apply countFees_ends _ _ _ _ ⟨kind, .inl failed⟩
        exact ⟨pricing, rfl, by rw [withTransaction, if_pos failed]⟩
    · simp only [if_neg failed]
      by_cases well : tx.status = 1
      · simp only [if_pos well]
        apply countFees_ends _ _ _ _ ⟨kind, .inr well⟩
        exact ⟨pricing, rfl, by rw [withTransaction, if_neg failed]⟩
      · simp only [if_neg well]
        exact .breaks (fun valid => valid.2.elim failed well) _ _

end Count

section Step

variable {charged : List Charge} {blocks : List Block} {t : BlockTotals} {pricing : Pricing}
  {tx : Transaction}

theorem hasGasPrice_iff (priced : Pricing.ofKind? tx.kind = some pricing) :
    tx.hasGasPrice = true ↔ pricing = .gasPrice := by
  rw [(Pricing.ofKind?_eq_some priced).2, Transaction.hasGasPrice, decide_eq_true_iff]

theorem tipPerGas_eq (priced : Pricing.ofKind? tx.kind = some pricing) (baseFee : Int) :
    tipPerGas pricing (.ofInt baseFee) tx = .ofInt (tx.effectivePrice baseFee - baseFee) := by
  rw [Transaction.effectivePrice]
  simp only [hasGasPrice_iff priced]
  cases pricing with
  | gasPrice => exact Decimal.ofInt_sub _ _
  | feeMarket =>
    rw [if_neg nofun, ← min_sub_sub_right, add_sub_cancel_left, min_comm]
    simp only [tipPerGas, Amount.toDecimal, Decimal.ofInt_sub, Decimal.ofInt_lower]

theorem withTransaction_eq (priced : Pricing.ofKind? tx.kind = some pricing) (baseFee : Int) :
    t.withTransaction pricing (.ofInt baseFee) tx = { t with
      txCount := t.txCount + 1
      gasPriceTxCount := if tx.hasGasPrice then t.gasPriceTxCount + 1 else t.gasPriceTxCount
      failedTxCount := if tx.status = 0 then t.failedTxCount + 1 else t.failedTxCount
      gasUsed := t.gasUsed + .ofInt tx.gasUsed
      failedGasUsed := if tx.status = 0 then t.failedGasUsed + .ofInt tx.gasUsed
        else t.failedGasUsed
      gasPrice := if tx.hasGasPrice then t.gasPrice + .ofInt tx.gasPrice.count else t.gasPrice
      burned := t.burned + .ofInt (baseFee * tx.gasUsed)
      tips := t.tips + .ofInt ((tx.effectivePrice baseFee - baseFee) * tx.gasUsed) } := by
  simp only [withTransaction, tipPerGas_eq priced, hasGasPrice_iff priced]
  cases pricing with
  | gasPrice => by_cases failed : tx.status = 0 <;> simp only [failed] <;> rfl
  | feeMarket => by_cases failed : tx.status = 0 <;> simp only [failed] <;> rfl

theorem Accounts.transaction (accounts : Accounts charged blocks t)
    (priced : Pricing.ofKind? tx.kind = some pricing) (baseFee : Int) :
    Accounts (charged ++ [(baseFee, tx)]) blocks
      (t.withTransaction pricing (.ofInt baseFee) tx) := by
  rw [withTransaction_eq priced]
  constructor
  case blockCount => exact accounts.blockCount
  case txCount => simp [accounts.txCount]
  case gasPriceTxCount => by_cases flat : tx.hasGasPrice <;> simp [accounts.gasPriceTxCount, flat]
  case failedTxCount => by_cases failed : tx.status = 0 <;> simp [accounts.failedTxCount, failed]
  case gasUsed => simp [accounts.gasUsed, Decimal.ofInt_add]
  case failedGasUsed =>
    by_cases failed : tx.status = 0 <;> simp [accounts.failedGasUsed, failed, Decimal.ofInt_add]
  case gasLimit => exact accounts.gasLimit
  case gasPrice =>
    by_cases flat : tx.hasGasPrice <;> simp [accounts.gasPrice, flat, Decimal.ofInt_add]
  case burned => simp [accounts.burned, Decimal.ofInt_add]
  case tips => simp [accounts.tips, Decimal.ofInt_add]
  case blockTimeMicros => exact accounts.blockTimeMicros
  case inRange => exact accounts.inRange
  case previousTimestamp => exact accounts.previousTimestamp

theorem elapsed_append (blocks : List Block) (block : Block) : elapsed (blocks ++ [block]) =
    elapsed blocks + (blocks.getLast?.map (·.timestamp)).elim 0 fun previous =>
      (previous - block.timestamp) * microsPerSecond := by
  unfold elapsed
  cases blocks with
  | nil => simp
  | cons first others =>
    simp [List.getLast?_cons]
    ring

theorem Accounts.header (accounts : Accounts charged blocks t) {block : Block}
    (inRange : (t.withHeader block).blockTimeMicros ∈ Bounds.int64) :
    Accounts charged (blocks ++ [block]) (t.withHeader block) where
  blockCount := by simp [withHeader, accounts.blockCount]
  txCount := accounts.txCount
  gasPriceTxCount := accounts.gasPriceTxCount
  failedTxCount := accounts.failedTxCount
  gasUsed := accounts.gasUsed
  failedGasUsed := accounts.failedGasUsed
  gasLimit := by simp [withHeader, accounts.gasLimit, Decimal.ofInt_add]
  gasPrice := accounts.gasPrice
  burned := accounts.burned
  tips := accounts.tips
  blockTimeMicros := by
    rw [elapsed_append, ← accounts.previousTimestamp, ← accounts.blockTimeMicros]
    rfl
  inRange := inRange
  previousTimestamp := by simp [withHeader]

end Step

section Run

variable {charged : List Charge} {blocks : List Block} {t : BlockTotals}

theorem addTransactions_ends (block : Block) (txs : List Transaction)
    (accounts : Accounts charged blocks t) : CountingEnds (∀ tx ∈ txs, tx.Valid)
      (Accounts (charged ++ txs.map (block.baseFeePerGas.count, ·)) blocks)
      (t.addTransactions block txs) := by
  induction txs generalizing charged t with
  | nil => exact .counts (List.forall_mem_nil _) (by simpa using accounts)
  | cons tx others ih =>
    rw [addTransactions]
    have first := t.addTransaction_ends block tx
    generalize t.addTransaction block tx = result at first ⊢
    cases first with
    | overflows => exact .overflows
    | breaks invalid u e => exact .breaks (fun valid => invalid (valid tx List.mem_cons_self)) u e
    | counts valid well =>
      obtain ⟨pricing, priced, rfl⟩ := well
      have rest := ih (accounts.transaction priced block.baseFeePerGas.count)
      refine rest.imp ?_ fun u counted => ?_
      · simp [valid]
      · simpa using counted

theorem charges_append (blocks : List Block) (block : Block) : charges (blocks ++ [block]) =
    charges blocks ++ block.transactions.map (block.baseFeePerGas.count, ·) := by
  simp [charges]

theorem addBlock_ends (block : Block) (accounts : Accounts (charges blocks) blocks t) :
    CountingEnds (∀ tx ∈ block.transactions, tx.Valid)
      (Accounts (charges (blocks ++ [block])) (blocks ++ [block])) (t.addBlock block) := by
  unfold addBlock
  obtain overflows | ⟨counted, inRange⟩ := t.addHeader_cases block accounts.inRange
  · rw [overflows]
    exact .overflows
  · rw [counted, charges_append]
    exact addTransactions_ends block block.transactions (accounts.header inRange)

/-- All transactions can be counted. -/
def Valid (blocks : List Block) : Prop := ∀ block ∈ blocks, ∀ tx ∈ block.transactions, tx.Valid

theorem valid_charges : (∀ c ∈ charges blocks, c.2.Valid) ↔ Valid blocks := by
  simp only [charges, Valid, List.mem_flatMap, List.mem_map]
  constructor
  · exact fun each block inside tx own => each _ ⟨block, inside, tx, own, rfl⟩
  · rintro valid _ ⟨block, inside, tx, own, rfl⟩
    exact valid block inside tx own

/-- Blocks are counted one after the other, as long as their transactions are valid. -/
theorem addBlocks_cases (blocks : List Block) {before : List Block}
    (accounts : Accounts (charges before) before t) :
    t.addBlocks blocks = .error (.fault .overflow) ∨
    (¬ Valid blocks ∧ ∃ e, t.addBlocks blocks = .error (.stage e)) ∨
    (Valid blocks ∧ ∃ u, t.addBlocks blocks = .ok u ∧
      Accounts (charges (before ++ blocks)) (before ++ blocks) u) := by
  induction blocks generalizing before t with
  | nil => exact .inr (.inr ⟨List.forall_mem_nil _, t, rfl, by rwa [List.append_nil]⟩)
  | cons block others ih =>
    rw [addBlocks]
    have first := addBlock_ends block accounts
    generalize t.addBlock block = result at first ⊢
    cases first with
    | overflows => exact .inl rfl
    | breaks invalid u e =>
      exact .inr (.inl ⟨fun valid => invalid (valid block List.mem_cons_self), e, rfl⟩)
    | counts valid well =>
      obtain overflows | ⟨invalid, e, broken⟩ | ⟨validToo, u, counted, more⟩ := ih well
      · exact .inl overflows
      · exact .inr (.inl ⟨fun all => invalid (List.forall_mem_cons.mp all).2, e, broken⟩)
      · rw [← List.append_cons] at more
        exact .inr (.inr ⟨List.forall_mem_cons.mpr ⟨valid, validToo⟩, u, counted, more⟩)

theorem accounts_empty : Accounts (charges []) [] empty := by
  constructor
  case inRange => decide
  all_goals rfl

theorem accounts_of_ok (counted : empty.addBlocks blocks = .ok t) :
    Valid blocks ∧ Accounts (charges blocks) blocks t := by
  obtain overflows | ⟨-, e, broken⟩ | ⟨valid, u, same, accounts⟩ :=
    addBlocks_cases blocks accounts_empty
  · cases overflows.symm.trans counted
  · cases broken.symm.trans counted
  · cases same.symm.trans counted
    exact ⟨valid, accounts⟩

end Run

section Order

variable {charged chargedToo : List Charge} {blocks blocksToo : List Block} {t u : BlockTotals}

/-- The same block with its transactions in another order. -/
def Reordered (a b : Block) : Prop :=
  ∃ txs : List Transaction, txs.Perm b.transactions ∧ a = { b with transactions := txs }

/-- The blocks in another order, and the transactions of each in another order as well. -/
def Shuffled (others blocks : List Block) : Prop :=
  ∃ between, List.Forall₂ Reordered others between ∧ between.Perm blocks

theorem Shuffled.charges (shuffled : Shuffled blocksToo blocks) :
    (charges blocksToo).Perm (charges blocks) := by
  obtain ⟨between, reordered, perm⟩ := shuffled
  refine .trans ?_ (perm.flatMap_right _)
  clear perm
  induction reordered with
  | nil => exact .refl _
  | cons first _ ih =>
    obtain ⟨txs, same, rfl⟩ := first
    exact (same.map _).append ih

theorem Shuffled.limits (shuffled : Shuffled blocksToo blocks) :
    (blocksToo.map (·.gasLimit)).Perm (blocks.map (·.gasLimit)) := by
  obtain ⟨between, reordered, perm⟩ := shuffled
  refine .trans ?_ (perm.map _)
  clear perm
  induction reordered with
  | nil => exact .refl _
  | cons first _ ih =>
    obtain ⟨txs, same, rfl⟩ := first
    exact ih.cons _

theorem Shuffled.valid (shuffled : Shuffled blocksToo blocks) (valid : Valid blocks) :
    Valid blocksToo :=
  valid_charges.mp fun c member =>
    valid_charges.mpr valid c (shuffled.charges.mem_iff.mp member)

/-- Of the same charges, in whatever order, accounts differ in nothing but the time. -/
theorem Accounts.eq_of_perm (accounts : Accounts charged blocks t)
    (accountsToo : Accounts chargedToo blocksToo u) (same : chargedToo.Perm charged)
    (limits : (blocksToo.map (·.gasLimit)).Perm (blocks.map (·.gasLimit))) :
    u = { t with
      blockTimeMicros := u.blockTimeMicros, previousTimestamp := u.previousTimestamp } := by
  have sum (f : Charge → Int) : (chargedToo.map f).sum = (charged.map f).sum :=
    (same.map f).sum_eq
  have part (p : Charge → Bool) (f : Charge → Int) :
      ((chargedToo.filter p).map f).sum = ((charged.filter p).map f).sum :=
    ((same.filter p).map f).sum_eq
  have length : blocksToo.length = blocks.length := by
    simpa only [List.length_map] using limits.length_eq
  have blockCount : u.blockCount = t.blockCount := by
    rw [accounts.blockCount, accountsToo.blockCount, length]
  have txCount : u.txCount = t.txCount := by
    rw [accounts.txCount, accountsToo.txCount, same.length_eq]
  have gasPriceTxCount : u.gasPriceTxCount = t.gasPriceTxCount := by
    rw [accounts.gasPriceTxCount, accountsToo.gasPriceTxCount, same.countP_eq]
  have failedTxCount : u.failedTxCount = t.failedTxCount := by
    rw [accounts.failedTxCount, accountsToo.failedTxCount, same.countP_eq]
  have gasUsed : u.gasUsed = t.gasUsed := by
    rw [accounts.gasUsed, accountsToo.gasUsed, sum]
  have failedGasUsed : u.failedGasUsed = t.failedGasUsed := by
    rw [accounts.failedGasUsed, accountsToo.failedGasUsed, part]
  have gasLimit : u.gasLimit = t.gasLimit := by
    rw [accounts.gasLimit, accountsToo.gasLimit, limits.sum_eq]
  have gasPrice : u.gasPrice = t.gasPrice := by
    rw [accounts.gasPrice, accountsToo.gasPrice, part]
  have burned : u.burned = t.burned := by
    rw [accounts.burned, accountsToo.burned, sum]
  have tips : u.tips = t.tips := by
    rw [accounts.tips, accountsToo.tips, sum]
  rw [← blockCount, ← txCount, ← gasPriceTxCount, ← failedTxCount, ← gasUsed, ← failedGasUsed,
    ← gasLimit, ← gasPrice, ← burned, ← tips]

end Order

/-- What the totals over the blocks say of their transactions. What is burned and the tips are all
that is paid, and what is not used in vain is used by those that succeed. -/
structure Settled (blocks : List Block) (t : BlockTotals) : Prop where
  accounts : Accounts (charges blocks) blocks t
  paid : t.burned + t.tips =
    .ofInt ((charges blocks).map fun c => c.2.effectivePrice c.1 * c.2.gasUsed).sum
  nonFailed : t.nonFailedGasUsed =
    .ofInt (((charges blocks).filter (·.2.status = 1)).map fun c => c.2.gasUsed).sum

theorem sum_by_status {charged : List Charge} (valid : ∀ c ∈ charged, c.2.Valid)
    (f : Charge → Int) : (charged.map f).sum =
      ((charged.filter (·.2.status = 0)).map f).sum +
        ((charged.filter (·.2.status = 1)).map f).sum := by
  have succeeded : charged.filter (·.2.status = 1) =
      charged.filter fun c => ! decide (c.2.status = 0) := by
    refine List.filter_congr fun c member => ?_
    obtain failed | well := (valid c member).2
    · simp [failed]
    · simp [well]
  rw [succeeded, ← List.sum_append, ← List.map_append]
  exact ((List.filter_append_perm _ charged).map f).sum_eq.symm

theorem Accounts.settled {blocks : List Block} {t : BlockTotals} (valid : Valid blocks)
    (accounts : Accounts (charges blocks) blocks t) : Settled blocks t where
  accounts := accounts
  paid := by
    have each (c : Charge) : c.1 * c.2.gasUsed + (c.2.effectivePrice c.1 - c.1) * c.2.gasUsed =
        c.2.effectivePrice c.1 * c.2.gasUsed := by ring
    rw [accounts.burned, accounts.tips, Decimal.ofInt_add, ← List.sum_map_add]
    simp only [each]
  nonFailed := by
    rw [nonFailedGasUsed, accounts.gasUsed, accounts.failedGasUsed, Decimal.ofInt_sub,
      sum_by_status (valid_charges.mpr valid), add_sub_cancel_left]

/-- Whatever blocks are counted, and in whatever order, unless a number is out of range: they are
counted just if their transactions are valid. The totals are then sums over the transactions. -/
theorem addBlocks_settled {blocks : List Block}
    (inRange : empty.addBlocks blocks ≠ .error (.fault .overflow)) :
    ((∃ t, empty.addBlocks blocks = .ok t) ↔ Valid blocks) ∧
    ∀ t, empty.addBlocks blocks = .ok t → Settled blocks t ∧
      ∀ others, Shuffled others blocks → empty.addBlocks others ≠ .error (.fault .overflow) →
        ∃ u, empty.addBlocks others = .ok u ∧ u = { t with
          blockTimeMicros := u.blockTimeMicros, previousTimestamp := u.previousTimestamp } := by
  have counts {blocks : List Block} (inRange : empty.addBlocks blocks ≠ .error (.fault .overflow))
      (valid : Valid blocks) : ∃ t, empty.addBlocks blocks = .ok t := by
    obtain overflows | ⟨invalid, -⟩ | ⟨-, t, counted, -⟩ := addBlocks_cases blocks accounts_empty
    · exact absurd overflows inRange
    · exact absurd valid invalid
    · exact ⟨t, counted⟩
  refine ⟨⟨fun ⟨t, counted⟩ => (accounts_of_ok counted).1, counts inRange⟩, fun t counted => ?_⟩
  obtain ⟨valid, accounts⟩ := accounts_of_ok counted
  refine ⟨accounts.settled valid, fun others shuffled inRangeToo => ?_⟩
  obtain ⟨u, countedToo⟩ := counts inRangeToo (shuffled.valid valid)
  obtain ⟨-, accountsToo⟩ := accounts_of_ok countedToo
  exact ⟨u, countedToo, accounts.eq_of_perm accountsToo shuffled.charges shuffled.limits⟩

/-- A flat price, a fee that is capped in a transaction that fails, and one that is not. -/
def mixedBlocks : List Block :=
  [⟨12, "c", 1024, ⟨8⟩, 30000000,
      [⟨"x", 0, 1, 21000, ⟨10⟩, ⟨0⟩, ⟨0⟩⟩, ⟨"y", 2, 0, 50000, ⟨0⟩, ⟨9⟩, ⟨3⟩⟩]⟩,
    ⟨11, "b", 1012, ⟨7⟩, 30000000, [⟨"z", 3, 1, 30000, ⟨0⟩, ⟨20⟩, ⟨1⟩⟩]⟩]

theorem addBlocks_settled_mixed : empty.addBlocks mixedBlocks ≠ .error (.fault .overflow) ∧
    ∃ t u, empty.addBlocks mixedBlocks = .ok t ∧ t.burned + t.tips = .ofInt 900000 ∧
      t.nonFailedGasUsed = .ofInt 51000 ∧ empty.addBlocks mixedBlocks.reverse = .ok u ∧
      u.tips = t.tips ∧ u.blockTimeMicros = -t.blockTimeMicros := by
  have counted : empty.addBlocks mixedBlocks = .ok ⟨2, 3, 1, 1, .ofInt 101000, .ofInt 50000,
    .ofInt 60000000, .ofInt 10, .ofInt 778000, .ofInt 122000, 12000000, some 1012⟩ := by rfl
  have turned : empty.addBlocks mixedBlocks.reverse = .ok ⟨2, 3, 1, 1, .ofInt 101000, .ofInt 50000,
    .ofInt 60000000, .ofInt 10, .ofInt 778000, .ofInt 122000, -12000000, some 1024⟩ := by rfl
  have inRange : empty.addBlocks mixedBlocks ≠ .error (.fault .overflow) := by
    rw [counted]
    exact nofun
  obtain ⟨settled, anyOrder⟩ := (addBlocks_settled inRange).2 _ counted
  have shuffled : Shuffled mixedBlocks.reverse mixedBlocks :=
    ⟨_, List.forall₂_same.mpr fun b _ => ⟨_, .refl _, rfl⟩, List.reverse_perm _⟩
  obtain ⟨u, same, equal⟩ := anyOrder _ shuffled (by rw [turned]; exact nofun)
  have tips := congrArg BlockTotals.tips equal
  have time : u.blockTimeMicros = -12000000 := by
    cases turned.symm.trans same
    rfl
  exact ⟨inRange, _, u, counted, settled.paid, settled.nonFailed, same, tips, time⟩

end BlockTotals
end ValidatorDays
