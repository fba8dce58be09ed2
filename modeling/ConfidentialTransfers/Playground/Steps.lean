-- SUMMARY: Every step of the playground keeps the invariant, wherever it stops.
import ConfidentialTransfers.Lib.Triple
import ConfidentialTransfers.Playground.Invariant

/-!
# Steps keep the invariant

A triple for each step and each of its parts. The precondition says where the
page is (`OnPlain`, `OnRules`); the invariant holds also where a step fails or the
page is reloaded.
-/

open Solana Effect

namespace Playground

variable {d : Devnet} {base : List Act} {GivenUp : Key → Prop} {p : Page} {act : Act} {mint : Key}
  {seeds : Seeds} {α β : Type} {P : Page → Prop} {Q : α → Page → Prop}

/-! ## Reading -/

/-- Nothing but the number of requests has changed. -/
def OnlyAsked (p p' : Page) : Prop := ∃ n, p' = { p with clock := n }

instance : IsPreorder Page OnlyAsked where
  refl p := ⟨p.clock, rfl⟩
  trans p p' p'' h h' := by
    obtain ⟨n, rfl⟩ := h
    obtain ⟨m, rfl⟩ := h'
    exact ⟨m, rfl⟩

/-- Waiting ends in a reload, or with the answer. -/
theorem wp_await {ask : Nat → Except JsError α} {done : Except JsError α → Page → Page}
    {Q : Except Stop α → Page → Prop} (hreloaded : Q (.error .reloaded) { p with clock := p.clock + 1 })
    (hanswered : Q ((ask p.clock).mapError .thrown)
      (done (ask p.clock) { p with clock := p.clock + 1 })) : (await d ask done).wp Q p := by
  unfold await wp
  cases hd : d.reloaded p.clock with
  | true => simpa [bind, Effect.get, Effect.modify, hd, Effect.throw] using hreloaded
  | false => simpa [bind, Effect.get, Effect.modify, hd, Effect.ofExcept] using hanswered

theorem onlyAsked_read (ask : Nat → Except JsError α) : (read d ask).Within OnlyAsked :=
  fun _ => wp_await ⟨_, rfl⟩ ⟨_, rfl⟩

theorem onlyAsked_state : state.Within OnlyAsked := Within.get.bind fun _ => .pure _

theorem onlyAsked_wallet (role : Role) : (wallet role).Within OnlyAsked :=
  onlyAsked_state.bind fun _ => .pure _

theorem onlyAsked_plainMint : plainMint.Within OnlyAsked := by
  refine onlyAsked_state.bind fun s => ?_
  split
  · exact .pure _
  · exact .throw _

theorem onlyAsked_check (failed : Bool) (e : JsError) : (check failed e).Within OnlyAsked := by
  unfold check
  split
  · exact .throw _
  · exact .pure _

theorem onlyAsked_tryCatch {m : App α} {handler : JsError → App α} (hm : m.Within OnlyAsked)
    (hhandler : ∀ e, (handler e).Within OnlyAsked) : (tryCatch m handler).Within OnlyAsked := by
  refine hm.attempt.bind fun r => ?_
  split
  · exact .pure _
  · exact hhandler _
  · exact .throw _

theorem onlyAsked_publicBalance (owner : Wallet) : (publicBalance d owner).Within OnlyAsked :=
  onlyAsked_tryCatch (onlyAsked_plainMint.bind fun _ => onlyAsked_read _) fun _ => .pure _

theorem onlyAsked_confidentialBalance (owner : Wallet) : (confidentialBalance d owner).Within OnlyAsked :=
  onlyAsked_plainMint.bind fun _ => onlyAsked_read _

theorem onlyAsked_auditedAmount (auditor : Wallet) (signatures : List Signature) :
    (auditedAmount d auditor signatures).Within OnlyAsked := by
  induction signatures with
  | nil => exact .pure _
  | cons signature signatures ih =>
    refine onlyAsked_tryCatch ?_ fun _ => ih
    exact (onlyAsked_read _).bind fun _ => .pure _

theorem onlyAsked_enteredAmount (cents : Option Nat) : (enteredAmount cents).Within OnlyAsked := by
  cases cents with
  | none => exact .throw _
  | some cents => exact .pure _

theorem onlyAsked_waitForAirdrop (attempts : Nat) : (waitForAirdrop d attempts).Within OnlyAsked := by
  induction attempts with
  | zero => exact .throw _
  | succ attempts ih =>
    refine (onlyAsked_read _).bind fun balance => ?_
    split
    · exact .pure _
    · exact ih

theorem onlyAsked_fund : (fund d).Within OnlyAsked :=
  (onlyAsked_tryCatch (onlyAsked_read _) fun _ => .throw _).bind fun _ => onlyAsked_waitForAirdrop 30

theorem onlyAsked_checkFunds (amount : Nat) : (checkFunds d amount).Within OnlyAsked := by
  refine onlyAsked_state.bind fun s => ?_
  split
  · exact (onlyAsked_wallet _).bind fun _ => (onlyAsked_confidentialBalance _).bind fun _ =>
      onlyAsked_check _ _
  · exact .pure _

theorem onlyAsked_checkSol : (checkSol d).Within OnlyAsked := by
  refine onlyAsked_state.bind fun s => ?_
  split
  · exact (onlyAsked_read _).bind fun _ => onlyAsked_check _ _
  · exact .pure _

theorem onlyAsked_checkRulesFunds (mint : Key) (amount : Nat) :
    (checkRulesFunds d mint amount).Within OnlyAsked := by
  refine onlyAsked_state.bind fun s => ?_
  split
  · exact (onlyAsked_wallet _).bind fun _ => (onlyAsked_read _).bind fun _ => onlyAsked_check _ _
  · exact .pure _

theorem onlyAsked_decryptForEach : (decryptForEach d).Within OnlyAsked :=
  (onlyAsked_wallet _).bind fun _ => (onlyAsked_confidentialBalance _).bind fun _ =>
    (onlyAsked_wallet _).bind fun _ => (onlyAsked_confidentialBalance _).bind fun _ =>
      (onlyAsked_wallet _).bind fun _ => onlyAsked_state.bind fun _ =>
        (onlyAsked_auditedAmount _ _).bind fun _ => .pure _

theorem Sound.ask (h : Sound d base GivenUp p) (n : Nat) : Sound d base GivenUp { p with clock := n } :=
  ⟨h.unsaved, h.stored, h.ledger, h.fits⟩

/-- What is not about the number of requests stays. -/
theorem triple_onlyAsked {m : App α} (hm : m.Within OnlyAsked)
    (hP : ∀ p n, P p → P { p with clock := n }) :
    Triple (Sound d base GivenUp) P m fun _ => P := by
  intro p hsound h
  obtain ⟨n, hn⟩ := hm p
  unfold wp
  rw [hn]
  exact ⟨hsound.ask n, fun _ _ => hP p n h⟩

theorem triple_wallet (role : Role) : Triple (Sound d base GivenUp) P (wallet role)
    fun w p => w = p.state.seeds.wallet role ∧ P p :=
  fun _ hsound h => ⟨hsound, fun _ hw => ⟨(Except.ok.inj hw).symm, h⟩⟩

theorem triple_state : Triple (Sound d base GivenUp) P state fun s p => s = p.state ∧ P p :=
  fun _ hsound h => ⟨hsound, fun _ hs => ⟨(Except.ok.inj hs).symm, h⟩⟩

theorem triple_plainMint : Triple (Sound d base GivenUp) P plainMint
    fun mint p => p.state.mint = some mint ∧ P p := by
  refine triple_state.bind fun s => ?_
  split
  · rename_i mint hmint
    refine .pure ?_
    rintro p - ⟨rfl, h⟩
    exact ⟨hmint, h⟩
  · exact .throw

theorem triple_rulesMint : Triple (Sound d base GivenUp) P rulesMint
    fun mint p => p.state.c.mint = some mint ∧ P p := by
  refine triple_state.bind fun s => ?_
  split
  · rename_i mint hmint
    refine .pure ?_
    rintro p - ⟨rfl, h⟩
    exact ⟨hmint, h⟩
  · exact .throw

/-! ## Acting -/

/-- The page once it was told that the act is confirmed. -/
def Page.confirm (p : Page) (act : Act) : Page :=
  { p with clock := p.clock + 1, confirmed := p.confirmed ++ [act] }

def Page.fail (p : Page) (act : Act) (e : JsError) : Page :=
  { p with clock := p.clock + 1, failed := p.failed ++ [(act, e)] }

theorem wp_perform {Q : Except Stop (List Signature) → Page → Prop} (hreloaded : Q (.error .reloaded)
    { p with clock := p.clock + 1 }) (hconfirm : ∀ signatures, Q (.ok signatures) (p.confirm act))
    (hfail : ∀ e, Q (.error (.thrown e)) (p.fail act e)) : (perform d act).wp Q p := by
  apply wp_await hreloaded
  cases d.perform p.clock act with
  | ok signatures => exact hconfirm signatures
  | error e => exact hfail e

theorem Sound.fail (h : Sound d base GivenUp p) (act : Act) (e : JsError) :
    Sound d base GivenUp (p.fail act e) :=
  ⟨h.unsaved, h.stored, h.ledger.fail _, h.fits.fail _⟩

/-- An act, and what is done once it is confirmed. -/
theorem triple_perform {m : List Signature → App α} (hm : ∀ signatures p, Sound d base GivenUp p → P p →
    (m signatures).wp (fun r p' => Sound d base GivenUp p' ∧ ∀ a, r = .ok a → Q a p') (p.confirm act)) :
    Triple (Sound d base GivenUp) P (perform d act >>= m) Q := by
  intro p hsound h
  rw [wp_bind]
  apply wp_perform
  · exact ⟨hsound.ask _, fun a ha => by cases ha⟩
  · exact fun signatures => hm signatures p hsound h
  · exact fun e => ⟨hsound.fail act e, fun a ha => by cases ha⟩

/-- An act that is not recorded in the state. -/
theorem triple_act (hsound : ∀ p, Sound d base GivenUp p → P p → Sound d base GivenUp (p.confirm act))
    {R : Page → Prop} (hR : ∀ p, P p → R (p.confirm act)) :
    Triple (Sound d base GivenUp) P (perform d act) fun _ => R := by
  intro p h hP
  apply wp_perform
  · exact ⟨h.ask _, fun a ha => by cases ha⟩
  · exact fun signatures => ⟨hsound p h hP, fun _ _ => hR p hP⟩
  · exact fun e => ⟨h.fail act e, fun a ha => by cases ha⟩

/-- A state that fits is saved. -/
theorem Sound.update {f : State → State} (hunsaved : d.storage = false → p.stored = none)
    (hledger : Ledger base GivenUp p.generated p.confirmed p.failed)
    (hfits : Fits GivenUp p.confirmed p.failed (f p.state)) :
    Sound d base GivenUp (Playground.update d f p).2 := by
  refine ⟨fun hstorage => ?_, ?_, hledger, hfits⟩
  · change (if d.storage then _ else p.stored) = none
    rw [if_neg (by simp [hstorage])]
    exact hunsaved hstorage
  · change (if d.storage then some (f p.state) else p.stored) = none ∨
      (if d.storage then some (f p.state) else p.stored) = some (f p.state)
    cases hstorage : d.storage with
    | true => exact .inr rfl
    | false => exact .inl (hunsaved hstorage)

/-! ## Steps 2 to 6 -/

/-- The step after `k` is running, on this token without rules. -/
def OnPlain (k : Nat) (mint : Key) (p : Page) : Prop := p.state.done = k ∧ p.state.mint = some mint

/-- One more act about the token without rules. -/
theorem Sound.confirm_plain (h : Sound d base GivenUp p) (hs : p.state.mint = some mint)
    (hmint : act.mint = some mint) (honce : (onces (p.confirmed ++ [act])).Nodup)
    (hbob : act.once ≠ some (mint, .configureAccount .bob)) (hpaid : act.once ≠ some (mint, .payBob)) :
    Sound d base GivenUp (p.confirm act) := by
  obtain ⟨hplain, hkept⟩ := h.fits.plain mint hs
  refine ⟨h.unsaved, h.stored, h.ledger.confirm_plain hplain.created hmint hkept honce, ?_⟩
  apply h.fits.confirm_plain h.ledger.once hs hmint rfl rfl rfl rfl
  exact hplain.confirm act (fun heq => absurd heq hbob) fun heq => absurd heq hpaid

/-- An act that may be repeated. -/
theorem triple_repeat {k : Nat} (hmint : act.mint = some mint) (honce : act.once = none) :
    Triple (Sound d base GivenUp) (OnPlain k mint) (perform d act) fun _ => OnPlain k mint := by
  refine triple_act (fun p hsound h => ?_) fun p h => h
  apply hsound.confirm_plain h.2 hmint (nodup_onces_new hsound.ledger.once ?_)
  · simp [honce]
  · simp [honce]
  · simp [honce]

/-- A key that no act is about yet. -/
structure NewMint (GivenUp : Key → Prop) (k : Nat) (mint : Key) (p : Page) : Prop where
  done : p.state.done = k
  lt : mint < p.generated
  new : ∀ a ∈ p.confirmed, a.mint ≠ some mint
  kept : ¬ GivenUp mint

theorem triple_generateKeyPairSigner {k : Nat} : Triple (Sound d base GivenUp) (fun p => p.state.done = k)
    generateKeyPairSigner fun mint => NewMint GivenUp k mint := by
  intro p hsound hdone
  refine ⟨⟨hsound.unsaved, hsound.stored, hsound.ledger.generate 1, hsound.fits⟩, ?_⟩
  rintro mint ⟨⟩
  refine ⟨hdone, Nat.lt_succ_self _, fun a ha hmint => ?_, fun hgiven => ?_⟩
  · exact Nat.lt_irrefl _ (hsound.ledger.known a ha _ hmint)
  · exact Nat.lt_irrefl _ (hsound.ledger.givenUp _ hgiven).1

theorem NewMint.ask {k : Nat} (h : NewMint GivenUp k mint p) (n : Nat) :
    NewMint GivenUp k mint { p with clock := n } :=
  ⟨h.done, h.lt, h.new, h.kept⟩

/-- Nothing that must be done once was done to a new token. -/
theorem NewMint.not_mem_onces {k : Nat} {kind : OnceKind} (h : NewMint GivenUp k mint p) :
    (mint, kind) ∉ onces p.confirmed := by
  intro hmem
  obtain ⟨a, ha, honce⟩ := List.mem_filterMap.1 hmem
  exact h.new a ha (Act.mint_of_once honce)

theorem triple_createPlainMint {k : Nat} : Triple (Sound d base GivenUp) (NewMint GivenUp k mint)
    (createPlainMint d mint)
    fun _ p => OnPlain k mint p ∧ ∃ auditor, onMint mint p.confirmed = [.createMint mint auditor false] := by
  refine (triple_wallet .auditor).bind fun auditor => ?_
  refine .bind (triple_onlyAsked (onlyAsked_read _) fun p n h => ⟨h.1, h.2.ask n⟩) fun _ => ?_
  refine triple_perform fun _ p hsound h => ?_
  obtain ⟨-, h⟩ := h
  have hnone : onMint mint p.confirmed = [] := by simpa [onMint] using h.new
  have honce : (onces (p.confirmed ++ [.createMint mint auditor false])).Nodup := by
    refine nodup_onces_new hsound.ledger.once ?_
    rintro _ ⟨⟩
    exact h.not_mem_onces
  have hcreated : .createMint mint auditor false ∈ p.confirmed ++ [.createMint mint auditor false] := by simp
  have hact : (Act.createMint mint auditor false).mint = some mint := rfl
  have hledger := hsound.ledger.confirm hact h.lt h.kept honce fun auditor' hmem =>
    absurd hcreated (sentinel_unique honce hmem)
  refine ⟨Sound.update hsound.unsaved hledger ?_, fun _ _ => ⟨⟨h.done, rfl⟩, auditor, ?_⟩⟩
  · refine ⟨?_, fun mint' hmint' => ?_, hsound.fits.noRules, hsound.fits.setUp, hsound.fits.finished⟩
    · rintro mint' ⟨⟩
      have hnot : ∀ kind, kind ≠ .createMint →
          (mint, kind) ∉ onces (p.confirmed ++ [.createMint mint auditor false]) := by
        intro kind hkind hmem
        rw [onces_append] at hmem
        rcases List.mem_append.1 hmem with hmem | hmem
        · exact h.not_mem_onces hmem
        · simp [onces, Act.once, hkind] at hmem
      exact ⟨⟨⟨auditor, hcreated⟩, fun hmem => absurd hmem (hnot _ (by simp)), fun hmem =>
        absurd hmem (hnot _ (by simp))⟩, h.kept⟩
    · obtain ⟨hrules, hkept⟩ := hsound.fits.rules mint' hmint'
      refine ⟨hrules.other fun heq => ?_, hkept⟩
      obtain rfl : mint = mint' := Option.some.inj heq
      exact h.new _ hrules.created rfl
  · change onMint mint (p.confirmed ++ [_]) = _
    rw [onMint_confirm rfl, hnone, List.nil_append]

theorem triple_createToken {k : Nat} : Triple (Sound d base GivenUp) (fun p => p.state.done = k)
    (createToken d) fun _ p => p.state.done = k := by
  refine triple_generateKeyPairSigner.bind fun mint => ?_
  refine triple_createPlainMint.bind fun _ => ?_
  refine (triple_wallet .you).bind fun you => ?_
  refine .bind (R := fun _ p => OnPlain k mint p ∧ onces (onMint mint p.confirmed) =
    [(mint, .createMint), (mint, .configureAccount .you)]) (triple_act ?_ ?_) fun _ => ?_
  · rintro p hsound ⟨rfl, h, auditor, honMint⟩
    apply hsound.confirm_plain h.2 rfl (nodup_onces_confirm hsound.ledger.once rfl ?_)
    · simp [Act.once, Seeds.wallet]
    · simp [Act.once]
    · rw [honMint]
      simp [onces, Act.once]
  · rintro p ⟨rfl, h, auditor, honMint⟩
    refine ⟨h, ?_⟩
    change onces (onMint mint (p.confirmed ++ [_])) = _
    rw [onMint_confirm rfl, honMint]
    rfl
  · refine .bind (R := fun _ => OnPlain k mint) (triple_act ?_ fun p h => h.1) fun _ => .pure fun p _ h => h.1
    rintro p hsound ⟨h, honMint⟩
    apply hsound.confirm_plain h.2 rfl (nodup_onces_confirm hsound.ledger.once rfl ?_)
    · simp [Act.once]
    · simp [Act.once]
    · rw [onces_append, honMint]
      simp [onces, Act.once]

theorem triple_depositAndApply {k : Nat} : Triple (Sound d base GivenUp) (fun p => p.state.done = k)
    (depositAndApply d) fun _ p => p.state.done = k := by
  refine triple_plainMint.bind fun mint => (triple_wallet .you).bind fun you => ?_
  refine .bind ((triple_repeat (k := k) rfl rfl).pre ?_) fun _ => .bind (triple_repeat (k := k) rfl rfl) fun _ => ?_
  · rintro p - ⟨-, hmint, hdone⟩
    exact ⟨hdone, hmint⟩
  · refine .bind (triple_onlyAsked (onlyAsked_publicBalance _) fun p n h => h) fun _ => ?_
    refine .bind (triple_onlyAsked (onlyAsked_confidentialBalance _) fun p n h => h) fun _ => ?_
    exact .pure fun p _ h => h.1

theorem triple_configureBob {k : Nat} : Triple (Sound d base GivenUp) (OnPlain k mint) (configureBob d mint)
    fun _ => OnPlain k mint := by
  refine triple_state.bind fun s => .ite (fun hbob => ?_) fun _ => .pure fun p _ h => h.2
  refine (triple_wallet .bob).bind fun bob => triple_perform fun _ p hsound h => ?_
  obtain ⟨rfl, rfl, hdone, hmint⟩ := h
  obtain ⟨hplain, hkept⟩ := hsound.fits.plain mint hmint
  have honce : (onces (p.confirmed ++ [.configureAccount mint (p.state.seeds.wallet .bob)])).Nodup := by
    refine nodup_onces_new hsound.ledger.once ?_
    rintro _ ⟨⟩ hmem
    exact hbob (hplain.configured hmem)
  refine ⟨Sound.update hsound.unsaved (hsound.ledger.confirm_plain hplain.created rfl hkept honce) ?_,
    fun _ _ => ⟨hdone, hmint⟩⟩
  refine hsound.fits.confirm_plain hsound.ledger.once hmint rfl rfl rfl rfl rfl ?_
  have hnew : PlainSound p.confirmed { p.state with bobMint := p.state.mint } mint :=
    ⟨hplain.created, fun _ => hmint, hplain.paid⟩
  exact hnew.confirm _ (fun _ => hmint) nofun

theorem triple_sendToBob {k amount : Nat} : Triple (Sound d base GivenUp) (OnPlain k mint)
    (sendToBob d mint amount) fun _ => OnPlain k mint := by
  refine triple_state.bind fun s => .ite (fun hsent => ?_) fun _ => .pure fun p _ h => h.2
  refine (triple_wallet .you).bind fun you => (triple_wallet .bob).bind fun bob => ?_
  refine triple_perform fun signatures p hsound h => ?_
  obtain ⟨rfl, rfl, rfl, hdone, hmint⟩ := h
  obtain ⟨hplain, hkept⟩ := hsound.fits.plain mint hmint
  have honce : (onces (p.confirmed ++
      [.transfer mint (p.state.seeds.wallet .you) (p.state.seeds.wallet .bob) amount])).Nodup := by
    refine nodup_onces_new hsound.ledger.once ?_
    rintro _ ⟨⟩ hmem
    have hpaid := hplain.paid hmem
    rw [Option.isNone_iff_eq_none.1 hsent] at hpaid
    cases hpaid
  refine ⟨Sound.update hsound.unsaved (hsound.ledger.confirm_plain hplain.created rfl hkept honce) ?_,
    fun _ _ => ⟨hdone, hmint⟩⟩
  refine hsound.fits.confirm_plain hsound.ledger.once hmint rfl rfl rfl rfl rfl ?_
  have hnew : PlainSound p.confirmed { p.state with signatures := signatures, sent := some amount } mint :=
    ⟨hplain.created, hplain.configured, fun _ => rfl⟩
  exact hnew.confirm _ nofun fun _ => rfl

theorem triple_payBob {k : Nat} (cents : Option Nat) : Triple (Sound d base GivenUp)
    (fun p => p.state.done = k) (payBob d cents) fun _ p => p.state.done = k := by
  refine .bind (triple_onlyAsked (onlyAsked_enteredAmount cents) fun p n h => h) fun amount => ?_
  refine .bind (triple_onlyAsked (onlyAsked_checkFunds amount) fun p n h => h) fun _ => ?_
  refine triple_plainMint.bind fun mint => ?_
  refine .bind (triple_configureBob.pre fun p _ h => ⟨h.2, h.1⟩) fun _ => triple_sendToBob.bind fun _ => ?_
  refine (triple_wallet .bob).bind fun bob => ?_
  refine .bind ((triple_repeat (k := k) rfl rfl).pre fun p _ h => h.2) fun _ => .pure fun p _ h => h.1

theorem triple_withdrawBob {k : Nat} : Triple (Sound d base GivenUp) (fun p => p.state.done = k)
    (withdrawBob d) fun _ p => p.state.done = k := by
  refine (triple_wallet .bob).bind fun bob => ?_
  refine .bind (triple_onlyAsked (onlyAsked_confidentialBalance _) fun p n h => h) fun amount => ?_
  refine .bind (triple_onlyAsked (onlyAsked_check _ _) fun p n h => h) fun _ => ?_
  refine triple_plainMint.bind fun mint => ?_
  refine .bind ((triple_repeat (k := k) rfl rfl).pre fun p _ h => ⟨h.2.2, h.1⟩) fun _ => ?_
  refine .bind (triple_onlyAsked (onlyAsked_publicBalance _) fun p n h => h) fun _ => ?_
  refine .bind (triple_onlyAsked (onlyAsked_confidentialBalance _) fun p n h => h) fun _ => ?_
  exact .pure fun p _ h => h.1

/-! ## Step 7 -/

/-- The step after `k` is running, on this token with rules, of which `n` stages are done. -/
structure OnRules (k : Nat) (seeds : Seeds) (mint : Key) (n : Nat) (p : Page) : Prop where
  done : p.state.done = k
  seeds : p.state.seeds = seeds
  mint : p.state.c.mint = some mint
  stage : n ≤ p.state.c.stage

/-- One more act about the token with rules, and what is saved of it. -/
theorem Sound.confirm_rules {f : Rules → Rules} (h : Sound d base GivenUp p)
    (hc : p.state.c.mint = some mint) (hmint : act.mint = some mint) (hf : (f p.state.c).mint = some mint)
    (hrules : RulesSound (p.confirmed ++ [act]) p.failed p.state.seeds mint (f p.state.c))
    (hsetUp : 7 ≤ p.state.done → (f p.state.c).stage = 8)
    (hfinished : 8 ≤ p.state.done → (f p.state.c).applied = true) :
    Sound d base GivenUp (updateRules d f (p.confirm act)).2 := by
  obtain ⟨hold, hkept⟩ := h.fits.rules mint hc
  have hlt : mint < p.generated := h.ledger.known _ hold.created mint rfl
  have hplain : p.state.mint ≠ some mint := fun hs => h.fits.ne h.ledger.once hs hc
  exact Sound.update h.unsaved (h.ledger.confirm_rules hlt hkept hmint hrules)
    (h.fits.confirm_rules hmint hplain hkept hf hrules hsetUp hfinished)

theorem OnRules.ask {k n : Nat} (h : OnRules k seeds mint n p) (clock : Nat) :
    OnRules k seeds mint n { p with clock := clock } :=
  ⟨h.done, h.seeds, h.mint, h.stage⟩

/-- The wallets are those of the seeds. -/
theorem triple_walletOf {role : Role} {m : Wallet → App α} (hP : ∀ p, P p → p.state.seeds = seeds)
    (h : Triple (Sound d base GivenUp) P (m (seeds.wallet role)) Q) :
    Triple (Sound d base GivenUp) P (wallet role >>= m) Q := by
  intro p hsound hat
  have hwallet : wallet role p = (.ok (seeds.wallet role), p) := by
    rw [← hP p hat]
    rfl
  rw [wp_bind, wp_iff_run hwallet]
  exact h p hsound hat

/-- A stage runs if it is the next one. -/
theorem triple_stage {k n : Nat} {finish : List Signature → Rules → Rules} (hn : 1 ≤ n)
    (hact : (rulesPlan seeds mint)[n]? = some act) (hmint : act.mint = some mint)
    (hfinish : ∀ signatures c, ∃ rulesTx, finish signatures c = { c with rulesTx }) :
    Triple (Sound d base GivenUp) (OnRules k seeds mint n) (stage d (n + 1) act finish)
      fun _ => OnRules k seeds mint (n + 1) := by
  refine triple_state.bind fun s => .ite (fun hstage => ?_) fun hstage => .pure ?_
  · refine triple_perform fun signatures p hsound h => ?_
    obtain ⟨rfl, hat⟩ := h
    have heq : p.state.c.stage = n := Nat.le_antisymm (Nat.le_of_lt_succ hstage) hat.stage
    have hlt : n < 8 := (List.getElem?_eq_some_iff.1 hact).1
    obtain ⟨hrules, -⟩ := hsound.fits.rules mint hat.mint
    obtain ⟨rulesTx, hrulesTx⟩ := hfinish signatures p.state.c
    have hnext : { finish signatures p.state.c with stage := n + 1 } =
        { p.state.c with rulesTx, stage := p.state.c.stage + 1 } := by
      rw [hrulesTx, heq]
    refine ⟨?_, fun _ _ => ⟨hat.done, hat.seeds, ?_, Nat.le_refl _⟩⟩
    · refine hsound.confirm_rules hat.mint hmint ?_ ?_ (fun hdone => ?_) fun hdone => ?_
      · exact (congrArg Rules.mint hnext).trans hat.mint
      · rw [hnext]
        apply hrules.advance ?_ hmint
        rw [heq, hat.seeds]
        exact hact
      · have hset := hsound.fits.setUp hdone
        omega
      · have hset := hsound.fits.setUp (Nat.le_of_succ_le hdone)
        omega
    · exact (congrArg Rules.mint hnext).trans hat.mint
  · rintro p - ⟨rfl, hat⟩
    exact ⟨hat.done, hat.seeds, hat.mint, Nat.le_of_not_lt hstage⟩

theorem triple_createRulesToken {k : Nat} : Triple (Sound d base GivenUp) (fun p => p.state.done = k)
    (createRulesToken d) fun _ p => p.state.done = k ∧ 1 ≤ p.state.c.stage := by
  refine triple_state.bind fun s => .ite (fun hstage => ?_) fun hstage => .pure ?_
  · refine .bind (R := fun mint p => p.state.c.stage < 1 ∧ NewMint GivenUp k mint p) ?_ fun mint => ?_
    · intro p hsound h
      obtain ⟨rfl, hdone⟩ := h
      have hnew := triple_generateKeyPairSigner p hsound hdone
      exact ⟨hnew.1, fun mint hmint => ⟨by cases hmint; exact hstage, hnew.2 mint hmint⟩⟩
    refine (triple_wallet .auditor).bind fun auditor => ?_
    refine .bind (triple_onlyAsked (onlyAsked_read _) fun p n h => ⟨h.1, h.2.1, h.2.2.ask n⟩) fun _ => ?_
    refine triple_perform fun signatures p hsound h => ?_
    obtain ⟨rfl, hstage, h⟩ := h
    -- no stage is done, so nothing is saved yet
    have hnone : p.state.c = {} := by
      cases hc : p.state.c.mint with
      | none => exact hsound.fits.noRules hc
      | some mint' =>
        have hpos := (hsound.fits.rules mint' hc).1.stage_pos
        omega
    have hdone : p.state.done < 7 := by
      by_contra hdone
      have hset := hsound.fits.setUp (Nat.le_of_not_lt hdone)
      omega
    have hcreate : RulesSound (p.confirmed ++ [.createMint mint (p.state.seeds.wallet .auditor) true])
        p.failed p.state.seeds mint { createdTx := signatures.head?, mint := some mint, stage := 1 } :=
      .create h.new signatures.head?
    have hplain : p.state.mint ≠ some mint := by
      intro hs
      obtain ⟨auditor, hcreated⟩ := (hsound.fits.plain mint hs).1.created
      exact h.new _ hcreated rfl
    refine ⟨Sound.update hsound.unsaved (hsound.ledger.confirm_rules h.lt h.kept rfl hcreate) ?_,
      fun _ _ => ⟨h.done, Nat.le_refl 1⟩⟩
    change Fits _ _ _ { p.state with c := { p.state.c with
      createdTx := signatures.head?, mint := some mint, stage := 1 } }
    rw [hnone]
    refine hsound.fits.confirm_rules rfl hplain h.kept rfl hcreate (fun hle => ?_) fun hle => ?_
    · omega
    · omega
  · rintro p - ⟨rfl, hdone⟩
    exact ⟨hdone, Nat.le_of_not_lt hstage⟩

theorem triple_setUpRules {k : Nat} : Triple (Sound d base GivenUp) (fun p => p.state.done = k)
    (setUpRules d) fun _ p => p.state.done = k ∧ p.state.c.stage = 8 := by
  refine .bind (triple_onlyAsked onlyAsked_checkSol fun p n h => h) fun _ => ?_
  refine triple_createRulesToken.bind fun _ => triple_rulesMint.bind fun mint => ?_
  refine .fix (fun p => p.state.seeds) fun seeds => ?_
  have hstart : ∀ p : Page, p.state.seeds = seeds ∧ p.state.c.mint = some mint ∧ p.state.done = k ∧
      1 ≤ p.state.c.stage → OnRules k seeds mint 1 p :=
    fun p h => ⟨h.2.2.1, h.1, h.2.1, h.2.2.2⟩
  have hseeds : ∀ p, OnRules k seeds mint 1 p → p.state.seeds = seeds := fun p h => h.seeds
  refine .pre (triple_walletOf hseeds (triple_walletOf hseeds (triple_walletOf hseeds ?_)))
    fun p _ => hstart p
  have hsame : ∀ (signatures : List Signature) (c : Rules), ∃ rulesTx, c = { c with rulesTx } :=
    fun _ c => ⟨c.rulesTx, rfl⟩
  refine .bind (triple_stage (by decide) rfl rfl fun _ _ => ⟨_, rfl⟩) fun _ => ?_
  refine .bind (triple_stage (by decide) rfl rfl hsame) fun _ => ?_
  refine .bind (triple_stage (by decide) rfl rfl hsame) fun _ => ?_
  refine .bind (triple_stage (by decide) rfl rfl hsame) fun _ => ?_
  refine .bind (triple_stage (by decide) rfl rfl hsame) fun _ => ?_
  refine .bind (triple_stage (by decide) rfl rfl hsame) fun _ => ?_
  refine .bind (triple_stage (by decide) rfl rfl hsame) fun _ => ?_
  refine .bind (triple_onlyAsked (onlyAsked_read _) fun p n h => h.ask n) fun _ => .pure fun p hsound h => ?_
  exact ⟨h.done, Nat.le_antisymm (hsound.fits.rules mint h.mint).1.stage_le h.stage⟩

/-! ## Step 8 -/

/-- The state of the page is as it was. -/
def SameState (p p' : Page) : Prop := p'.state = p.state

instance : IsPreorder Page SameState where
  refl _ := rfl
  trans _ _ _ h h' := Eq.trans h' h

theorem sameState_perform (act : Act) : (perform d act).Within SameState :=
  fun _ => wp_perform rfl (fun _ => rfl) fun _ => rfl

theorem sameState_of_onlyAsked {m : App α} (h : m.Within OnlyAsked) : m.Within SameState := by
  refine h.mono ?_
  rintro p _ ⟨n, rfl⟩
  rfl

theorem sameState_closeBatches (batches : List (List Address)) : (closeBatches d batches).Within SameState := by
  induction batches with
  | nil => exact .pure _
  | cons batch batches ih => exact (sameState_perform _).bind fun _ => ih

theorem sameState_closeLeftoverProofs : (closeLeftoverProofs d).Within SameState :=
  (sameState_of_onlyAsked (onlyAsked_wallet _)).bind fun _ =>
    (sameState_of_onlyAsked (onlyAsked_read _)).bind fun _ =>
      (sameState_closeBatches _).bind fun _ => .pure _

/-- Closing proof accounts is about no token. -/
theorem Sound.confirm_closeProofs (h : Sound d base GivenUp p) (accounts : List Address) :
    Sound d base GivenUp (p.confirm (.closeProofs accounts)) := by
  have hnone : ∀ mint, (Act.closeProofs accounts).mint ≠ some mint := fun _ => nofun
  refine ⟨h.unsaved, h.stored, ⟨fun a ha mint hmint => ?_, ?_, fun mint auditor hmem => ?_,
    fun mint hgiven => ?_⟩, ?_⟩
  · rcases List.mem_append.1 ha with ha | ha
    · exact h.ledger.known a ha mint hmint
    · obtain rfl := List.mem_singleton.1 ha
      exact absurd hmint (hnone mint)
  · exact nodup_onces_new h.ledger.once nofun
  · have hmem : .createMint mint auditor true ∈ p.confirmed := by simpa [Page.confirm] using hmem
    obtain ⟨seeds, c, hc⟩ := h.ledger.rules mint auditor hmem
    exact ⟨seeds, c, hc.other (hnone mint)⟩
  · change _ ∧ onMint mint (p.confirmed ++ [_]) = _
    rw [onMint_other (hnone mint)]
    exact h.ledger.givenUp mint hgiven
  · exact ⟨fun mint hmint => ⟨(h.fits.plain mint hmint).1.other (hnone mint), (h.fits.plain mint hmint).2⟩,
      fun mint hmint => ⟨(h.fits.rules mint hmint).1.other (hnone mint), (h.fits.rules mint hmint).2⟩,
      h.fits.noRules, h.fits.setUp, h.fits.finished⟩

theorem triple_closeBatches (batches : List (List Address)) :
    Triple (Sound d base GivenUp) (fun _ => True) (closeBatches d batches) fun _ _ => True := by
  induction batches with
  | nil => exact .pure fun _ _ h => h
  | cons batch batches ih =>
    exact .bind (triple_act (fun p hsound _ => hsound.confirm_closeProofs batch) fun _ h => h) fun _ => ih

theorem triple_closeLeftoverProofs :
    Triple (Sound d base GivenUp) (fun _ => True) (closeLeftoverProofs d) fun _ _ => True :=
  .bind (triple_onlyAsked (onlyAsked_wallet _) fun _ _ h => h) fun _ =>
    .bind (triple_onlyAsked (onlyAsked_read _) fun _ _ h => h) fun _ =>
      (triple_closeBatches _).bind fun _ => .pure fun _ _ h => h

theorem wp_tryCatch {m : App α} {handler : JsError → App α} {Q : Except Stop α → Page → Prop}
    (h : m.wp (fun r p => match r with
      | .ok a => Q (.ok a) p
      | .error (.thrown e) => (handler e).wp Q p
      | .error .reloaded => Q (.error .reloaded) p) p) : (tryCatch m handler).wp Q p := by
  unfold tryCatch
  rw [wp_bind, wp_attempt]
  refine h.mono fun r p' hr => ?_
  match r with
  | .ok a => exact hr
  | .error (.thrown e) => exact hr
  | .error .reloaded => exact hr

/-- A change of what is saved of the token with rules, without an act. -/
theorem Sound.update_rules {f : Rules → Rules} (h : Sound d base GivenUp p)
    (hc : p.state.c.mint = some mint) (hf : (f p.state.c).mint = some mint)
    (hrules : RulesSound p.confirmed p.failed p.state.seeds mint (f p.state.c))
    (hstage : (f p.state.c).stage = p.state.c.stage) (happlied : (f p.state.c).applied = p.state.c.applied) :
    Sound d base GivenUp (updateRules d f p).2 := by
  refine Sound.update h.unsaved h.ledger ⟨fun mint' hmint' => ?_, fun mint' hmint' => ?_, fun hnone => ?_,
    fun hdone => ?_, fun hdone => ?_⟩
  · obtain ⟨hplain, hkept⟩ := h.fits.plain mint' hmint'
    exact ⟨⟨hplain.created, hplain.configured, hplain.paid⟩, hkept⟩
  · obtain rfl := Option.some.inj (hf.symm.trans hmint')
    exact ⟨hrules, (h.fits.rules mint hc).2⟩
  · cases hf.symm.trans hnone
  · exact hstage.trans (h.fits.setUp hdone)
  · exact happlied.trans (h.fits.finished hdone)

/-- Mallory's payment is refused, or the step stops. -/
theorem triple_payMallory {k amount : Nat} : Triple (Sound d base GivenUp) (OnRules k seeds mint 8)
    (payMallory d mint amount) fun _ p => OnRules k seeds mint 8 p ∧ p.state.c.refused.isSome := by
  refine triple_state.bind fun s => .ite (fun hrefused => ?_) fun hrefused => .pure ?_
  · have hseeds : ∀ p, s = p.state ∧ OnRules k seeds mint 8 p → p.state.seeds = seeds := fun p h => h.2.seeds
    refine triple_walletOf hseeds (triple_walletOf hseeds ?_)
    refine .bind (R := fun _ => OnRules k seeds mint 8) ?_ fun _ => triple_state.bind fun s => ?_
    · rintro p hsound ⟨rfl, hat⟩
      obtain rfl := hat.seeds
      obtain ⟨hrules, -⟩ := hsound.fits.rules mint hat.mint
      have hstage : p.state.c.stage = 8 := Nat.le_antisymm hrules.stage_le hat.stage
      have hnone : p.state.c.refused = none := Option.isNone_iff_eq_none.1 hrefused
      refine wp_tryCatch ?_
      rw [wp_bind]
      apply wp_perform
      · exact ⟨hsound.ask _, nofun⟩
      · -- the payment went through
        intro signatures
        refine ⟨?_, fun _ _ => ⟨hat.done, hat.seeds, hat.mint, hat.stage⟩⟩
        have hthrough := hrules.letThrough hstage hnone amount
        have hlt : mint < p.generated := hsound.ledger.known _ hrules.created mint rfl
        obtain ⟨-, hkept⟩ := hsound.fits.rules mint hat.mint
        exact ⟨hsound.unsaved, hsound.stored, hsound.ledger.confirm_rules hlt hkept rfl hthrough,
          hsound.fits.confirm_rules rfl (fun hs => hsound.fits.ne hsound.ledger.once hs hat.mint) hkept
            hat.mint hthrough hsound.fits.setUp hsound.fits.finished⟩
      · intro e
        have hfail := hsound.fail (.transfer mint (p.state.seeds.wallet .you) (p.state.seeds.wallet .mallory)
          amount) e
        dsimp only
        split
        · exact ⟨hfail, nofun⟩
        · rename_i why hwhy
          have hrefuse := (hfail.fits.rules mint hat.mint).1.refuse hstage
            (List.mem_append_right _ (List.mem_singleton.2 rfl)) hwhy
          exact ⟨hfail.update_rules hat.mint hat.mint hrefuse rfl rfl,
            fun _ _ => ⟨hat.done, hat.seeds, hat.mint, hat.stage⟩⟩
    · refine .ite (fun _ => .throw) fun hsome => .pure ?_
      rintro p - ⟨rfl, hat⟩
      exact ⟨hat, by simpa [Option.isSome_iff_ne_none] using hsome⟩
  · rintro p - ⟨rfl, hat⟩
    exact ⟨hat, by simpa [Option.isSome_iff_ne_none] using hrefused⟩

/-- However the cleanup goes, it is not tried again. -/
theorem triple_cleanUp {k : Nat} : Triple (Sound d base GivenUp)
    (fun p => OnRules k seeds mint 8 p ∧ p.state.c.refused.isSome) (cleanUp d)
    fun _ p => OnRules k seeds mint 8 p ∧ p.state.c.cleaned = true := by
  refine triple_state.bind fun s => .ite (fun hcleaned => ?_) fun hcleaned => .pure ?_
  · refine .bind (R := fun _ p => OnRules k seeds mint 8 p ∧ p.state.c.refused.isSome) ?_ fun closed => ?_
    · rintro p hsound ⟨rfl, hat, hrefused⟩
      have hkeep : ∀ p' : Page, p'.state = p.state →
          OnRules k seeds mint 8 p' ∧ p'.state.c.refused.isSome := by
        intro p' hp'
        rw [hp']
        exact ⟨⟨hp' ▸ hat.done, hp' ▸ hat.seeds, hp' ▸ hat.mint, hp' ▸ hat.stage⟩, hrefused⟩
      refine wp_tryCatch ?_
      rw [wp_bind]
      refine ((triple_closeLeftoverProofs p hsound trivial).and (sameState_closeLeftoverProofs p)).mono ?_
      rintro (e | closed) p' ⟨⟨hsound', -⟩, hsame⟩
      · cases e with
        | thrown e => exact ⟨hsound', fun _ _ => hkeep p' hsame⟩
        | reloaded => exact ⟨hsound', nofun⟩
      · exact ⟨hsound', fun _ _ => hkeep p' hsame⟩
    · rintro p hsound ⟨hat, hrefused⟩
      have hclean := (hsound.fits.rules mint hat.mint).1.clean hrefused closed
      exact ⟨hsound.update_rules hat.mint hat.mint hclean rfl rfl,
        fun _ _ => ⟨⟨hat.done, hat.seeds, hat.mint, hat.stage⟩, rfl⟩⟩
  · rintro p - ⟨rfl, hat, -⟩
    exact ⟨hat, by simpa using hcleaned⟩

theorem triple_sendUnderRules {k amount : Nat} : Triple (Sound d base GivenUp)
    (fun p => OnRules k seeds mint 8 p ∧ p.state.c.cleaned = true) (sendUnderRules d mint amount)
    fun _ p => OnRules k seeds mint 8 p ∧ p.state.c.sent.isSome := by
  refine triple_state.bind fun s => .ite (fun hsent => ?_) fun hsent => .pure ?_
  · have hseeds : ∀ p, s = p.state ∧ OnRules k seeds mint 8 p ∧ p.state.c.cleaned = true →
        p.state.seeds = seeds := fun p h => h.2.1.seeds
    refine triple_walletOf hseeds (triple_walletOf hseeds ?_)
    refine triple_perform fun signatures p hsound h => ?_
    obtain ⟨rfl, hat, hcleaned⟩ := h
    obtain rfl := hat.seeds
    obtain ⟨hrules, -⟩ := hsound.fits.rules mint hat.mint
    have hpay := hrules.pay hcleaned (Option.isNone_iff_eq_none.1 hsent) amount signatures
    exact ⟨hsound.confirm_rules hat.mint rfl hat.mint hpay hsound.fits.setUp hsound.fits.finished,
      fun _ _ => ⟨⟨hat.done, hat.seeds, hat.mint, hat.stage⟩, rfl⟩⟩
  · rintro p - ⟨rfl, hat, -⟩
    exact ⟨hat, by simpa [Option.isSome_iff_ne_none] using hsent⟩

theorem triple_applyUnderRules {k : Nat} : Triple (Sound d base GivenUp)
    (fun p => OnRules k seeds mint 8 p ∧ p.state.c.sent.isSome) (applyUnderRules d mint)
    fun _ p => OnRules k seeds mint 8 p ∧ p.state.c.applied = true := by
  refine triple_state.bind fun s => .ite (fun happlied => ?_) fun happlied => .pure ?_
  · have hseeds : ∀ p, s = p.state ∧ OnRules k seeds mint 8 p ∧ p.state.c.sent.isSome →
        p.state.seeds = seeds := fun p h => h.2.1.seeds
    refine triple_walletOf hseeds ?_
    refine triple_perform fun signatures p hsound h => ?_
    obtain ⟨rfl, hat, hsent⟩ := h
    obtain rfl := hat.seeds
    obtain ⟨hrules, -⟩ := hsound.fits.rules mint hat.mint
    have happly := hrules.apply hsent happlied
    exact ⟨hsound.confirm_rules hat.mint rfl hat.mint happly hsound.fits.setUp fun _ => rfl,
      fun _ _ => ⟨⟨hat.done, hat.seeds, hat.mint, hat.stage⟩, rfl⟩⟩
  · rintro p - ⟨rfl, hat, -⟩
    exact ⟨hat, by simpa using happlied⟩

theorem triple_payUnderRules {k : Nat} (cents : Option Nat) : Triple (Sound d base GivenUp)
    (fun p => p.state.done = k ∧ p.state.c.stage = 8) (payUnderRules d cents)
    fun _ p => p.state.done = k ∧ p.state.c.applied = true := by
  refine triple_rulesMint.bind fun mint => ?_
  refine .bind (triple_onlyAsked (onlyAsked_enteredAmount cents) fun p n h => h) fun amount => ?_
  refine .bind (triple_onlyAsked (onlyAsked_checkRulesFunds mint amount) fun p n h => h) fun _ => ?_
  refine .fix (fun p => p.state.seeds) fun seeds => ?_
  refine .bind (triple_payMallory.pre fun p _ h => ⟨h.2.2.1, h.1, h.2.1, h.2.2.2.ge⟩) fun _ => ?_
  refine triple_cleanUp.bind fun _ => triple_sendUnderRules.bind fun _ => ?_
  refine triple_applyUnderRules.bind fun _ => (triple_wallet .bob).bind fun bob => ?_
  refine .bind (triple_onlyAsked (onlyAsked_read _) fun p n h => ⟨h.1, h.2.1.ask n, h.2.2⟩) fun _ => ?_
  refine (triple_wallet .auditor).bind fun auditor => triple_state.bind fun s => ?_
  refine .bind (triple_onlyAsked (onlyAsked_auditedAmount _ _) fun p n h => ?_) fun _ => .pure ?_
  · exact ⟨h.1, h.2.1, h.2.2.1, h.2.2.2.1.ask n, h.2.2.2.2⟩
  · rintro p - ⟨-, -, -, hat, happlied⟩
    exact ⟨hat.done, happlied⟩

end Playground
