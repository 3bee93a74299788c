import MarginRouter.Clearing
import MarginRouter.Proofs.Ledger

/-!
# Money on its way

The net position of the clearing account in a token is what it holds less what it owes. Together with the balances of the
ledger it makes the worth of the books in that token. `Books.Flow b b' paid gained` says how money has flowed between two
states of the books: what each holder has been paid and what the clearing account has gained. A flow in which the payments to
the holders and the gain of the clearing account cancel keeps the worth of the books.
-/

namespace MarginRouter

namespace Exposure

/-- Not both held and owed. -/
def Proper (e : Exposure) : Prop := e.held = 0 ∨ e.owed = 0

def net (e : Exposure) : Int := (e.held.toNat : Int) - e.owed.toNat

theorem eq_flat_iff {e : Exposure} : e = .flat ↔ e.held = 0 ∧ e.owed = 0 := by
  simp [flat, Exposure.ext_iff]

theorem receive_eq_some {e e' : Exposure} {amount : Amount} (h : e.receive amount = some e') :
    e'.net = e.net + amount.toNat ∧ (e.Proper → e'.Proper) := by
  unfold receive at h
  by_cases ha : amount ≤ e.owed
  · rw [if_pos ha] at h
    cases h
    have hle := Amount.le_def.1 ha
    refine ⟨by simp only [net, Amount.toNat_sub]; omega, ?_⟩
    rintro (hh | ho)
    · exact .inl hh
    · refine .inr (Amount.eq_zero_iff.2 ?_)
      simp [ho]
  · rw [if_neg ha] at h
    obtain ⟨held, hs, rfl⟩ := Option.map_eq_some_iff.1 h
    have hsum := Amount.add?_eq_some.1 hs
    have hlt := mt Amount.le_def.2 ha
    refine ⟨?_, fun _ => .inr rfl⟩
    simp only [net, hsum, Amount.toNat_sub, Amount.toNat_zero]
    omega

theorem pay_eq_some {e e' : Exposure} {amount : Amount} (h : e.pay amount = some e') :
    e'.net = e.net - amount.toNat ∧ (e.Proper → e'.Proper) := by
  unfold pay at h
  by_cases ha : amount ≤ e.held
  · rw [if_pos ha] at h
    cases h
    have hle := Amount.le_def.1 ha
    refine ⟨by simp only [net, Amount.toNat_sub]; omega, ?_⟩
    rintro (hh | ho)
    · refine .inl (Amount.eq_zero_iff.2 ?_)
      simp [hh]
    · exact .inr ho
  · rw [if_neg ha] at h
    obtain ⟨owed, hs, rfl⟩ := Option.map_eq_some_iff.1 h
    have hsum := Amount.add?_eq_some.1 hs
    have hlt := mt Amount.le_def.2 ha
    refine ⟨?_, fun _ => .inl rfl⟩
    simp only [net, hsum, Amount.toNat_sub, Amount.toNat_zero]
    omega

theorem Proper.held_eq {e : Exposure} (h : e.Proper) : (e.held.toNat : Int) = max e.net 0 := by
  rcases h with h | h <;> simp only [net, h, Amount.toNat_zero] <;> omega

theorem Proper.owed_eq {e : Exposure} (h : e.Proper) : (e.owed.toNat : Int) = max (-e.net) 0 := by
  rcases h with h | h <;> simp only [net, h, Amount.toNat_zero] <;> omega

end Exposure

namespace Clearing

/-- What the account holds of a token less what it owes. -/
def net (c : Clearing) (token : Address) : Int := (c.exposure token).net

/-- In no token does the account both hold and owe. -/
def Proper (c : Clearing) : Prop := ∀ token, (c.exposure token).Proper

@[simp] theorem exposure_new (account token : Address) : (new account).exposure token = .flat := by
  simp [new, exposure]

@[simp] theorem net_new (account token : Address) : (new account).net token = 0 := by
  rw [net, exposure_new]
  rfl

theorem proper_new (account : Address) : (new account).Proper := by
  intro token
  rw [exposure_new]
  exact .inl rfl

theorem setExposure_eq (c : Clearing) (token : Address) (e : Exposure) :
    c.setExposure token e = { c with exposures := Table.write .flat c.exposures token e } := by
  unfold setExposure Table.write
  simp only [← Exposure.eq_flat_iff]
  split <;> rfl

@[simp] theorem exposure_setExposure (c : Clearing) (token : Address) (e : Exposure) (t : Address) :
    (c.setExposure token e).exposure t = if t = token then e else c.exposure t := by
  rw [setExposure_eq, exposure, Table.getD_write, exposure]

/-- One receipt: this amount of this token, and nothing else. -/
def receipt (token : Address) (amount : Int) (t : Address) : Int :=
  if t = token then amount else 0

/-- `c'` is `c` after the account has gained `gained token` of each token. -/
structure Gained (c c' : Clearing) (gained : Address → Int) : Prop where
  net : ∀ t, c'.net t = c.net t + gained t
  proper : c.Proper → c'.Proper

theorem Gained.refl (c : Clearing) : Gained c c 0 :=
  ⟨fun _ => (Int.add_zero _).symm, id⟩

theorem Gained.trans {c c' c'' : Clearing} {g g' : Address → Int} (h : Gained c c' g) (h' : Gained c' c'' g') :
    Gained c c'' (g + g') := by
  refine ⟨fun t => ?_, fun hc => h'.proper (h.proper hc)⟩
  rw [h'.net, h.net, Pi.add_apply, Int.add_assoc]

/-- Writing one exposure gains the change of its net position. -/
theorem gained_setExposure {c : Clearing} {token : Address} {e : Exposure} {amount : Int}
    (hn : e.net = (c.exposure token).net + amount) (hp : (c.exposure token).Proper → e.Proper) :
    Gained c (c.setExposure token e) (receipt token amount) := by
  constructor
  · intro t
    unfold net receipt
    rw [exposure_setExposure]
    by_cases ht : t = token
    · simp [ht, hn]
    · simp [ht]
  · intro hc t
    rw [exposure_setExposure]
    by_cases ht : t = token
    · simpa [ht] using hp (hc token)
    · simpa [ht] using hc t

theorem gained_credit {c c' : Clearing} {token : Address} {amount : Amount} (h : c.credit token amount = .ok c') :
    Gained c c' (receipt token amount.toNat) := by
  unfold credit at h
  split at h
  · cases h
  · rename_i e he
    cases h
    obtain ⟨hn, hp⟩ := Exposure.receive_eq_some he
    exact gained_setExposure hn hp

theorem gained_debit {c c' : Clearing} {token : Address} {amount : Amount} (h : c.debit token amount = .ok c') :
    Gained c c' (receipt token (-amount.toNat)) := by
  unfold debit at h
  split at h
  · cases h
  · rename_i e he
    cases h
    obtain ⟨hn, hp⟩ := Exposure.pay_eq_some he
    exact gained_setExposure hn hp

/-- Spending what is held is a debit of no more than is held. -/
theorem spendHeld_eq_ok {c c' : Clearing} {token : Address} {amount : Amount} :
    c.spendHeld token amount = .ok c' ↔ amount ≤ c.held token ∧ c.debit token amount = .ok c' := by
  unfold spendHeld
  by_cases h : c.held token < amount
  · simp only [h, if_true]
    exact ⟨nofun, fun hd => absurd h (Nat.not_lt.2 hd.1)⟩
  · simp only [h, if_false]
    exact ⟨fun hd => ⟨Nat.le_of_not_lt h, hd⟩, fun hd => hd.2⟩

/-! ## Settling -/

/-- One amount of each exposure, by token, where it is not zero. -/
def amounts (c : Clearing) (f : Exposure → Amount) : List (Address × Amount) :=
  (c.exposures.toList.filter fun e => f e.2 ≠ 0).map fun e => (e.1, f e.2)

section Amounts

variable {c : Clearing} {f : Exposure → Amount}

theorem mem_amounts (hf : f .flat = 0) {token : Address} {amount : Amount} :
    (token, amount) ∈ c.amounts f ↔ f (c.exposure token) = amount ∧ amount ≠ 0 := by
  simp only [amounts, List.mem_map, List.mem_filter, decide_eq_true_eq, Prod.mk.injEq, Prod.exists,
    Std.ExtTreeMap.mem_toList_iff_getElem?_eq_some, exposure]
  constructor
  · rintro ⟨t, e, ⟨he, hne⟩, rfl, rfl⟩
    rw [he]
    exact ⟨rfl, hne⟩
  · rintro ⟨rfl, hne⟩
    cases he : c.exposures[token]? with
    | none => simp [he, hf] at hne
    | some e =>
      rw [he] at hne
      exact ⟨token, e, ⟨he, hne⟩, rfl, rfl⟩

theorem nodup_amounts : ((c.amounts f).map Prod.fst).Nodup := by
  rw [amounts, List.map_map]
  exact (Table.nodup_keys c.exposures).sublist (List.filter_sublist.map Prod.fst)

theorem sum_amounts (hf : f .flat = 0) (sign : Int) (token : Address) :
    ((c.amounts f).map fun e => if e.1 = token then sign * e.2.toNat else 0).sum =
      sign * (f (c.exposure token)).toNat := by
  have hm : ∀ a v, (a, v) ∈ c.amounts f ↔
      (if f (c.exposure a) = 0 then none else some (f (c.exposure a))) = some v := by
    intro a v
    rw [mem_amounts hf]
    by_cases h0 : f (c.exposure a) = 0
    · simp only [h0, if_true, reduceCtorEq, iff_false]
      exact fun h => h.2 h.1.symm
    · simp only [h0, if_false, Option.some.injEq]
      exact ⟨fun h => h.1, fun h => ⟨h, h ▸ h0⟩⟩
  rw [Table.sum_entries nodup_amounts hm fun a v => if a = token then sign * (v.toNat : Int) else 0]
  rw [Finset.sum_eq_single token]
  · by_cases h0 : f (c.exposure token) = 0
    · simp [h0]
    · simp [h0]
  · intro a _ ha
    by_cases h0 : f (c.exposure a) = 0
    · simp [h0]
    · simp [h0, ha]
  · intro h
    exact absurd (Finset.mem_univ token) h

/-- When one token alone has an amount, the list is that amount. -/
theorem amounts_eq_singleton (hf : f .flat = 0) {token : Address} (h0 : f (c.exposure token) ≠ 0)
    (h : ∀ t, t ≠ token → f (c.exposure t) = 0) : c.amounts f = [(token, f (c.exposure token))] := by
  have hn : (c.amounts f).Nodup := nodup_amounts.of_map _
  have hp : (c.amounts f).Perm [(token, f (c.exposure token))] := by
    refine (List.perm_ext_iff_of_nodup hn (List.nodup_singleton _)).2 ?_
    rintro ⟨t, a⟩
    rw [mem_amounts hf, List.mem_singleton, Prod.mk.injEq]
    constructor
    · rintro ⟨rfl, hne⟩
      by_cases ht : t = token
      · subst ht
        exact ⟨rfl, rfl⟩
      · exact absurd (h t ht) hne
    · rintro ⟨rfl, rfl⟩
      exact ⟨rfl, h0⟩
  exact List.perm_singleton.1 hp

theorem amounts_eq_nil (hf : f .flat = 0) (h : ∀ t, f (c.exposure t) = 0) : c.amounts f = [] := by
  refine List.eq_nil_iff_forall_not_mem.2 ?_
  rintro ⟨t, a⟩ hm
  obtain ⟨rfl, hne⟩ := (mem_amounts hf).1 hm
  exact hne (h t)

/-- When no other token has an amount, the list is the amount of the one token, if it is not zero. -/
theorem amounts_eq_single (hf : f .flat = 0) {token : Address} {amount : Amount}
    (h : ∀ t, ((f (c.exposure t)).toNat : Int) = receipt token amount.toNat t) :
    c.amounts f = if amount = 0 then [] else [(token, amount)] := by
  have htoken : f (c.exposure token) = amount := by
    have ht := h token
    rw [receipt, if_pos rfl] at ht
    exact Amount.ext (Int.ofNat.inj ht)
  have hother : ∀ t, t ≠ token → f (c.exposure t) = 0 := by
    intro t hne
    have ht := h t
    rw [receipt, if_neg hne] at ht
    exact Amount.eq_zero_iff.2 (Int.ofNat_eq_zero.1 ht)
  by_cases h0 : amount = 0
  · rw [if_pos h0]
    refine amounts_eq_nil hf fun t => ?_
    by_cases ht : t = token
    · rw [ht, htoken, h0]
    · exact hother t ht
  · rw [if_neg h0, ← htoken]
    exact amounts_eq_singleton hf (htoken ▸ h0) hother

end Amounts

theorem debts_eq (c : Clearing) : c.debts = c.amounts Exposure.owed := rfl

theorem holdings_eq (c : Clearing) : c.holdings = c.amounts Exposure.held := rfl

/-- An account that is above zero in one token at most pays out what it has of that token. -/
theorem holdings_of_net {c : Clearing} (hc : c.Proper) (token : Address) (amount : Amount)
    (hn : ∀ t, max (c.net t) 0 = receipt token amount.toNat t) :
    c.holdings = if amount = 0 then [] else [(token, amount)] :=
  amounts_eq_single rfl fun t => (hc t).held_eq.trans (hn t)

/-- An account that is below zero in one token at most pulls in what it lacks of that token. -/
theorem debts_of_net {c : Clearing} (hc : c.Proper) (token : Address) (amount : Amount)
    (hn : ∀ t, max (-c.net t) 0 = receipt token amount.toNat t) :
    c.debts = if amount = 0 then [] else [(token, amount)] :=
  amounts_eq_single rfl fun t => (hc t).owed_eq.trans (hn t)

/-- A settlement that succeeds pays the counterparty the net position in every token, and reports what it has done. -/
theorem settle_eq_ok {c : Clearing} {counterparty : Address} {l l' : Ledger} {report : SettlementReport}
    (h : c.settle counterparty l = .ok report l') :
    report = ⟨c.holdings, c.debts⟩ ∧ Ledger.Paid l l' fun t k => if k = counterparty then c.net t else 0 := by
  simp only [settle, Step.bind_eq_ok, Step.pure_eq_ok] at h
  obtain ⟨_, l₁, hd, _, l₂, hh, hr, rfl⟩ := h
  refine ⟨hr.symm, ?_⟩
  have h₁ := Ledger.paid_forM counterparty (-1) (fun e l u l' he => by
    rw [neg_one_mul]
    exact Ledger.paid_debit (Step.write_eq_ok.1 he)) c.debts hd
  have h₂ := Ledger.paid_forM counterparty 1 (fun e l u l' he => by
    rw [one_mul]
    exact Ledger.paid_credit (Step.write_eq_ok.1 he)) c.holdings hh
  refine (h₁.trans h₂).congr fun t k => ?_
  simp only [Pi.add_apply, debts_eq, holdings_eq, sum_amounts (f := Exposure.owed) rfl,
    sum_amounts (f := Exposure.held) rfl]
  by_cases hk : k = counterparty
  · simp only [hk, if_true, net, Exposure.net]
    omega
  · simp [hk]

end Clearing

namespace Books

open Ledger Clearing

/-- What there is of a token in the books: all balances, what the clearing account holds, less what it owes. -/
def worth (b : Books) (token : Address) : Int :=
  b.ledger.sum token + b.clearing.net token

/-- Money has flowed from `b` to `b'`: each holder has been paid `paid token holder`, and the clearing account has gained
`gained token`. Positions may have been written besides. -/
structure Flow (b b' : Books) (paid : Address → Address → Int) (gained : Address → Int) : Prop where
  holds : ∀ t k, b'.ledger.holds t k = b.ledger.holds t k + paid t k
  clearing : Gained b.clearing b'.clearing gained

/-- Money has flowed and no position has been written. -/
structure Moved (b b' : Books) (paid : Address → Address → Int) (gained : Address → Int) : Prop
    extends Flow b b' paid gained where
  positions : b'.ledger.positions = b.ledger.positions

section Flow

variable {b b' b'' : Books} {p p' : Address → Address → Int} {g g' : Address → Int}

theorem Flow.trans (h : Flow b b' p g) (h' : Flow b' b'' p' g') : Flow b b'' (p + p') (g + g') := by
  refine ⟨fun t k => ?_, h.clearing.trans h'.clearing⟩
  rw [h'.holds, h.holds, Pi.add_apply, Pi.add_apply, Int.add_assoc]

/-- The worth of the books changes by all that is paid and gained. -/
theorem Flow.worth (h : Flow b b' p g) (t : Address) : b'.worth t = b.worth t + (∑ k : Address, p t k) + g t := by
  have hs : b'.ledger.sum t = b.ledger.sum t + ∑ k : Address, p t k := by
    unfold Ledger.sum
    rw [← Finset.sum_add_distrib]
    exact Finset.sum_congr rfl fun k _ => h.holds t k
  rw [Books.worth, Books.worth, hs, h.clearing.net]
  omega

/-- The worth of the books is the same in every token. -/
def SameWorth (b b' : Books) : Prop := ∀ t, b'.worth t = b.worth t

theorem SameWorth.chains : Step.Chains SameWorth :=
  ⟨fun _ _ => rfl, fun h h' t => (h' t).trans (h t)⟩

/-- A flow whose payments and gains cancel keeps the worth of the books. -/
theorem Flow.sameWorth (h : Flow b b' p g) (hz : ∀ t, (∑ k : Address, p t k) + g t = 0) : SameWorth b b' := by
  intro t
  rw [h.worth t, Int.add_assoc, hz t, Int.add_zero]

/-- A payment to one holder and a receipt of the clearing account cancel when their amounts do. -/
theorem sum_payment_add_receipt (token holder : Address) {amount amount' : Int} (h : amount + amount' = 0) (t : Address) :
    (∑ k : Address, payment token holder amount t k) + receipt token amount' t = 0 := by
  rw [sum_payment, receipt]
  split_ifs <;> omega

theorem Moved.trans (h : Moved b b' p g) (h' : Moved b' b'' p' g') : Moved b b'' (p + p') (g + g') :=
  ⟨h.toFlow.trans h'.toFlow, h'.positions.trans h.positions⟩

theorem Moved.congr (h : Moved b b' p g) (hp : ∀ t k, p t k = p' t k) (hg : ∀ t, g t = g' t) : Moved b b' p' g' := by
  have ep : p = p' := funext fun t => funext fun k => hp t k
  have eg : g = g' := funext hg
  rw [← ep, ← eg]
  exact h

/-- To the ledger, a movement of money is a payment. -/
theorem Moved.paid (h : Moved b b' p g) : Paid b.ledger b'.ledger p :=
  ⟨h.holds, h.positions⟩

theorem Moved.position (h : Moved b b' p g) (m u a : Address) : b'.ledger.position m u a = b.ledger.position m u a := by
  rw [Ledger.position, h.positions, Ledger.position]

end Flow

variable {b b' : Books} {u : Unit} {token holder : Address} {amount : Amount}

theorem moved_of_paid {l l' : Ledger} {c : Clearing} {p : Address → Address → Int} (h : Paid l l' p) :
    Moved ⟨l, c⟩ ⟨l', c⟩ p 0 :=
  ⟨⟨h.holds, Gained.refl _⟩, h.positions⟩

theorem moved_onLedger {α ε : Type} {step : Step ε Ledger α} {a : α} {p : Address → Address → Int}
    (hs : ∀ l l', step l = .ok a l' → Paid l l' p) (h : onLedger step b = .ok a b') : Moved b b' p 0 := by
  obtain ⟨l, hl, rfl⟩ := Step.on_eq_ok.1 h
  exact moved_of_paid (hs _ _ hl)

theorem moved_clear {f : Clearing → Except LedgerError Clearing} {g : Address → Int}
    (hf : ∀ c c', f c = .ok c' → Gained c c' g) (h : clear f b = .ok u b') : Moved b b' 0 g := by
  obtain ⟨c, hc, rfl⟩ := Step.on_eq_ok.1 h
  exact ⟨⟨fun _ _ => (Int.add_zero _).symm, hf _ _ (Step.write_eq_ok.1 hc)⟩, rfl⟩

theorem moved_debit (h : Books.debit token holder amount b = .ok u b') :
    Moved b b' (payment token holder (-amount.toNat)) 0 :=
  moved_onLedger (fun _ _ hl => paid_debit (Step.write_eq_ok.1 hl)) h

theorem moved_credit (h : Books.credit token holder amount b = .ok u b') :
    Moved b b' (payment token holder amount.toNat) 0 :=
  moved_onLedger (fun _ _ hl => paid_credit (Step.write_eq_ok.1 hl)) h

theorem moved_clear_credit (h : clear (fun c => c.credit token amount) b = .ok u b') :
    Moved b b' 0 (receipt token amount.toNat) :=
  moved_clear (fun _ _ hc => gained_credit hc) h

theorem moved_clear_debit (h : clear (fun c => c.debit token amount) b = .ok u b') :
    Moved b b' 0 (receipt token (-amount.toNat)) :=
  moved_clear (fun _ _ hc => gained_debit hc) h

theorem moved_clear_spendHeld (h : clear (fun c => c.spendHeld token amount) b = .ok u b') :
    Moved b b' 0 (receipt token (-amount.toNat)) :=
  moved_clear (fun _ _ hc => gained_debit (spendHeld_eq_ok.1 hc).2) h

end Books

end MarginRouter
