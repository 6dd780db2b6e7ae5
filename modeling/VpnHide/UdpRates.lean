import Mathlib.Data.Nat.Cast.Order.Basic
import VpnHide.Connect
import VpnHide.Kernel
import VpnHide.Lib.TokenBucket

/-!
# The UDP rate limiters (`kmod/hooks_fs.c`, `kpatch/security/vpnhide/hook_socket.c`)

One bucket per uid. The module counts thousandths of tokens, adds what was gained in 32 bits and caps the sum
afterwards: after a pause of more than two hours the sum can wrap, and a uid that has been idle is refused
(`udpRateLimitExceeded_wraps`). As long as no sum wraps, its decisions are those of a bucket in unbounded numbers
(`udpRateLimitExceeded_agrees`). The patch counts whole tokens in a signed `int`, and what the conversions lose is lost
to the sender (`Kpatch.vpnhideUdpSendmsg_admits_le`).
-/

namespace VpnHide

/-! ### The module -/

def bucketCapacity : UInt32 := 250
def tokenRegenNs : UInt64 := 2000000

def UdpUidRate.regenerate (rate : UdpUidRate) (now : UInt64) : UdpUidRate :=
  if now > rate.lastTimeNs then
    let elapsed := now - rate.lastTimeNs
    let regTokens := elapsed * 1000 / tokenRegenNs
    if regTokens > 0 then
      let tokens := rate.tokens + regTokens.toUInt32
      if tokens ≥ bucketCapacity * 1000 then { rate with tokens := bucketCapacity * 1000, lastTimeNs := now }
      else { rate with tokens := tokens, lastTimeNs := rate.lastTimeNs + regTokens * tokenRegenNs / 1000 }
    else rate
  else rate

/-- With `limit_exceeded`. -/
def UdpUidRate.spend (rate : UdpUidRate) : UdpUidRate × Bool :=
  if rate.tokens ≥ 1000 then ({ rate with tokens := rate.tokens - 1000 }, false) else (rate, true)

/-- A call of `udp_rate_limit_exceeded`. -/
structure UdpCall where
  uid : UInt32
  /-- `ktime_get_ns()` -/
  now : UInt64
  /-- the memory for a new entry is there -/
  kmalloc : Bool

def udpRateLimitExceeded (rates : List UdpUidRate) (call : UdpCall) : List UdpUidRate × Bool :=
  match rates.find? fun rate => rate.uid = call.uid with
  | some rate =>
    (updateFirst (fun rate => rate.uid = call.uid) (fun rate => (rate.regenerate call.now).spend.1) rates,
      (rate.regenerate call.now).spend.2)
  | none =>
    if call.kmalloc then
      (({ uid := call.uid, lastTimeNs := call.now, tokens := (bucketCapacity - 1) * 1000 } : UdpUidRate) :: rates,
        false)
    else (rates, false)

/-- What the calls of `uid` return, among calls of any uid. -/
def udpDecisions (uid : UInt32) : List UdpUidRate → List UdpCall → List Bool
  | _, [] => []
  | rates, call :: calls =>
    let (rates', exceeded) := udpRateLimitExceeded rates call
    (if call.uid = uid then [exceeded] else []) ++ udpDecisions uid rates' calls

def udpRatesAfter (rates : List UdpUidRate) (calls : List UdpCall) : List UdpUidRate :=
  calls.foldl (fun rates call => (udpRateLimitExceeded rates call).1) rates

/-! ### The bucket in unbounded numbers -/

/-- A call against the bucket that it is meant to be, if there is one already. -/
def bucketCall (b : Option Bucket) (call : UdpCall) : Option Bucket × Bool :=
  match b with
  | none => (if call.kmalloc then some ⟨249000, call.now.toNat⟩ else none, false)
  | some b =>
    let (b, admitted) := (b.refill 250000 2000 call.now.toNat).take 1000
    (some b, !admitted)

def bucketDecisions : Option Bucket → List UdpCall → List Bool
  | _, [] => []
  | b, call :: calls => (bucketCall b call).2 :: bucketDecisions (bucketCall b call).1 calls

/-- The sum of what is in the bucket and of what it gained does not wrap, or what is left of it fills the bucket. -/
def NoWrap (rate : UdpUidRate) (now : UInt64) : Prop :=
  let level := rate.tokens.toNat + (now.toNat - rate.lastTimeNs.toNat) / 2000
  level < 2 ^ 32 ∨ 250000 ≤ level % 2 ^ 32

/-- Along the calls of `uid`. -/
def NoWraps (uid : UInt32) : List UdpUidRate → List UdpCall → Prop
  | _, [] => True
  | rates, call :: calls =>
    (call.uid = uid → ∀ rate ∈ rates.find? (fun rate => rate.uid = uid), NoWrap rate call.now) ∧
      NoWraps uid (udpRateLimitExceeded rates call).1 calls

instance (rate : UdpUidRate) (now : UInt64) : Decidable (NoWrap rate now) := inferInstanceAs (Decidable (_ ∨ _))

instance NoWraps.decidable (uid : UInt32) : ∀ rates calls, Decidable (NoWraps uid rates calls)
  | _, [] => isTrue trivial
  | rates, call :: calls => @instDecidableAnd _ _ inferInstance
    (decidable uid (udpRateLimitExceeded rates call).1 calls)

namespace UdpUidRate

def toBucket (rate : UdpUidRate) : Bucket := ⟨rate.tokens.toNat, rate.lastTimeNs.toNat⟩

section Regenerate
variable {rate : UdpUidRate} {now : UInt64}

theorem uid_regenerate : (rate.regenerate now).uid = rate.uid := by
  unfold regenerate
  dsimp only
  split_ifs <;> rfl

theorem uid_spend : rate.spend.1.uid = rate.uid := by
  unfold spend
  split_ifs <;> rfl

theorem toNat_tokenRegenNs : tokenRegenNs.toNat = 2000000 := by decide +kernel

theorem toNat_regTokens (hle : rate.lastTimeNs.toNat ≤ now.toNat) (hnow : now.toNat * 1000 < 2 ^ 63) :
    ((now - rate.lastTimeNs) * 1000 / tokenRegenNs).toNat = (now.toNat - rate.lastTimeNs.toNat) / 2000 := by
  have hsmall : (now.toNat - rate.lastTimeNs.toNat) * 1000 < 2 ^ 64 :=
    (Nat.mul_le_mul_right 1000 (Nat.sub_le ..)).trans_lt (hnow.trans (by decide))
  have hdiv : (now.toNat - rate.lastTimeNs.toNat) * 1000 / 2000000 = (now.toNat - rate.lastTimeNs.toNat) / 2000 := by
    omega
  rw [UInt64.toNat_div, UInt64.toNat_mul, UInt64.toNat_sub_of_le _ _ (UInt64.le_iff_toNat_le.2 hle), toNat_tokenRegenNs,
    UInt64.toNat_ofNat, Nat.mod_eq_of_lt (a := 1000) (by decide), Nat.mod_eq_of_lt hsmall, hdiv]

theorem toNat_lastTimeNs_add (hle : rate.lastTimeNs.toNat ≤ now.toNat) (hnow : now.toNat * 1000 < 2 ^ 63) :
    (rate.lastTimeNs + (now - rate.lastTimeNs) * 1000 / tokenRegenNs * tokenRegenNs / 1000).toNat =
      rate.lastTimeNs.toNat + (now.toNat - rate.lastTimeNs.toNat) / 2000 * 2000 := by
  have hle' : (now.toNat - rate.lastTimeNs.toNat) / 2000 * 2000000 ≤ now.toNat * 1000 := by omega
  have hsmall := hle'.trans_lt (hnow.trans (by decide : 2 ^ 63 < 2 ^ 64))
  have hdiv (gained : ℕ) : gained * 2000000 / 1000 = gained * 2000 := by omega
  have hsum : rate.lastTimeNs.toNat + (now.toNat - rate.lastTimeNs.toNat) / 2000 * 2000 < 2 ^ 64 := by
    have hlt := now.toNat_lt
    omega
  rw [UInt64.toNat_add, UInt64.toNat_div, UInt64.toNat_mul, toNat_regTokens hle hnow, toNat_tokenRegenNs,
    UInt64.toNat_ofNat, Nat.mod_eq_of_lt hsmall, Nat.mod_eq_of_lt (a := 1000) (by decide), hdiv, Nat.mod_eq_of_lt hsum]

/-- The sum is taken in 32 bits and capped afterwards. -/
theorem toBucket_regenerate (hlevel : rate.tokens.toNat < 250000) (hle : rate.lastTimeNs.toNat ≤ now.toNat)
    (hnow : now.toNat * 1000 < 2 ^ 63) :
    (rate.regenerate now).toBucket =
      let gained := (now.toNat - rate.lastTimeNs.toNat) / 2000
      let level := (rate.tokens.toNat + gained) % 2 ^ 32
      if 250000 ≤ level then ⟨250000, now.toNat⟩ else ⟨level, rate.lastTimeNs.toNat + gained * 2000⟩ := by
  have hreg := toNat_regTokens hle hnow
  have hlast := toNat_lastTimeNs_add hle hnow
  have hcap : (bucketCapacity * 1000).toNat = 250000 := by decide +kernel
  unfold regenerate
  dsimp only
  generalize (now - rate.lastTimeNs) * 1000 / tokenRegenNs = regTokens at hreg hlast ⊢
  rw [← hreg] at hlast ⊢
  have htokens : (rate.tokens + regTokens.toUInt32).toNat = (rate.tokens.toNat + regTokens.toNat) % 2 ^ 32 := by
    rw [UInt32.toNat_add, UInt64.toNat_toUInt32, Nat.add_mod_mod]
  by_cases hzero : regTokens.toNat = 0
  · -- nothing gained
    have hnone : ¬ regTokens > 0 := fun h => absurd (UInt64.lt_iff_toNat_lt.1 h) (by simp [hzero])
    have hroom : ¬ 250000 ≤ (rate.tokens.toNat + 0) % 2 ^ 32 := by omega
    rw [if_neg hnone, ite_self, hzero, if_neg hroom, Nat.mod_eq_of_lt (by omega)]
    rfl
  · have hsome : regTokens > 0 := UInt64.lt_iff_toNat_lt.2 (Nat.pos_of_ne_zero hzero)
    have hlater : now > rate.lastTimeNs := UInt64.lt_iff_toNat_lt.2 (by omega)
    rw [if_pos hlater, if_pos hsome]
    by_cases hfull : 250000 ≤ (rate.tokens.toNat + regTokens.toNat) % 2 ^ 32
    · have hge : rate.tokens + regTokens.toUInt32 ≥ bucketCapacity * 1000 :=
        UInt32.le_iff_toNat_le.2 (by rwa [hcap, htokens])
      rw [if_pos hge, if_pos hfull, toBucket, hcap]
    · have hlt : ¬ rate.tokens + regTokens.toUInt32 ≥ bucketCapacity * 1000 :=
        fun h => hfull (by rw [← htokens, ← hcap]; exact UInt32.le_iff_toNat_le.1 h)
      rw [if_neg hlt, if_neg hfull, toBucket, htokens, hlast]

/-- Regenerating is refilling, if and only if no sum wraps to less than the capacity. -/
theorem toBucket_regenerate_iff (hlevel : rate.tokens.toNat < 250000) (hle : rate.lastTimeNs.toNat ≤ now.toNat)
    (hnow : now.toNat * 1000 < 2 ^ 63) :
    (rate.regenerate now).toBucket = rate.toBucket.refill 250000 2000 now.toNat ↔ NoWrap rate now := by
  rw [toBucket_regenerate hlevel hle hnow]
  unfold NoWrap Bucket.refill toBucket
  generalize hgained : (now.toNat - rate.lastTimeNs.toNat) / 2000 = gained
  dsimp only
  by_cases hfull : 250000 ≤ (rate.tokens.toNat + gained) % 2 ^ 32
  · have hcap : 250000 ≤ rate.tokens.toNat + gained := hfull.trans (Nat.mod_le ..)
    rw [if_pos hfull, if_pos hcap]
    exact iff_of_true rfl (.inr hfull)
  · rw [if_neg hfull]
    by_cases hwrap : rate.tokens.toNat + gained < 2 ^ 32
    · rw [Nat.mod_eq_of_lt hwrap] at hfull ⊢
      rw [if_neg hfull]
      exact iff_of_true rfl (.inl hwrap)
    · have hcap : 250000 ≤ rate.tokens.toNat + gained := by omega
      rw [if_pos hcap]
      refine iff_of_false (fun h => hfull ?_) fun h => h.elim hwrap hfull
      exact (congrArg Bucket.level h).ge

theorem toBucket_spend (rate : UdpUidRate) :
    rate.spend.1.toBucket = (rate.toBucket.take 1000).1 ∧ rate.spend.2 = !(rate.toBucket.take 1000).2 := by
  have h1000 : (1000 : UInt32).toNat = 1000 := rfl
  unfold spend Bucket.take
  by_cases h : 1000 ≤ rate.tokens.toNat
  · have hge : rate.tokens ≥ 1000 := UInt32.le_iff_toNat_le.2 h
    rw [if_pos hge, if_pos (by exact h)]
    exact ⟨by rw [toBucket, UInt32.toNat_sub_of_le _ _ hge, h1000]; rfl, rfl⟩
  · have hlt : ¬ rate.tokens ≥ 1000 := fun hge => h (UInt32.le_iff_toNat_le.1 hge)
    rw [if_neg hlt, if_neg (by exact h)]
    exact ⟨rfl, rfl⟩

end Regenerate

end UdpUidRate

/-- The entry of `uid` is the bucket `b`, which is not full and accounted for up to `t` at most. -/
structure Accounts (uid : UInt32) (t : ℕ) (rates : List UdpUidRate) (b : Option Bucket) : Prop where
  entry : (rates.find? fun rate => rate.uid = uid).map UdpUidRate.toBucket = b
  level : ∀ x, b = some x → x.level < 250000
  last : ∀ x, b = some x → x.last ≤ t

section Runs
variable {uid : UInt32} {t : ℕ} {rates : List UdpUidRate} {b : Option Bucket} {call : UdpCall}

theorem Accounts.own (h : Accounts uid t rates b) (huid : call.uid = uid) (ht : t ≤ call.now.toNat)
    (hnow : call.now.toNat * 1000 < 2 ^ 63)
    (hwrap : ∀ rate ∈ rates.find? (fun rate => rate.uid = uid), NoWrap rate call.now) :
    (udpRateLimitExceeded rates call).2 = (bucketCall b call).2 ∧
      Accounts uid call.now.toNat (udpRateLimitExceeded rates call).1 (bucketCall b call).1 := by
  obtain ⟨rfl, hlevel, hlast⟩ := h
  unfold udpRateLimitExceeded
  rw [huid]
  cases hfind : rates.find? (fun rate => rate.uid = uid) with
  | none =>
    simp only [Option.map_none, bucketCall]
    by_cases hkmalloc : call.kmalloc
    · rw [if_pos hkmalloc, if_pos hkmalloc]
      refine ⟨rfl, ?_, ?_, ?_⟩
      · rw [List.find?_cons_of_pos (by simp)]
        exact congrArg some (by simp [UdpUidRate.toBucket, bucketCapacity])
      · rintro x ⟨⟩
        exact (by decide : 249000 < 250000)
      · rintro x ⟨⟩
        exact le_rfl
    · rw [if_neg hkmalloc, if_neg hkmalloc]
      exact ⟨rfl, by rw [hfind]; rfl, nofun, nofun⟩
  | some rate =>
    rw [hfind] at hlevel hlast
    have hrefill := (UdpUidRate.toBucket_regenerate_iff (hlevel _ rfl) ((hlast _ rfl).trans ht) hnow).2
      (hwrap rate hfind)
    obtain ⟨hspend, hexceeded⟩ := UdpUidRate.toBucket_spend (rate.regenerate call.now)
    rw [hrefill] at hspend hexceeded
    have huid' (rate : UdpUidRate) : (rate.regenerate call.now).spend.1.uid = rate.uid :=
      UdpUidRate.uid_spend.trans UdpUidRate.uid_regenerate
    have hafter : ∀ x, (bucketCall (some rate.toBucket) call).1 = some x →
        ((rate.toBucket.refill 250000 2000 call.now.toNat).take 1000).1 = x := fun x hx => Option.some.inj hx
    refine ⟨hexceeded, ?_, ?_, ?_⟩
    · rw [find?_updateFirst (by simp [huid']), hfind, Option.map_some, Option.map_some, hspend]
      rfl
    · intro x hx
      rw [← hafter x hx]
      exact Bucket.level_take_lt (by decide) (by decide) Bucket.level_refill_le
    · intro x hx
      rw [← hafter x hx, Bucket.last_take]
      exact Bucket.last_refill_le ((hlast _ rfl).trans ht)

theorem Accounts.other (h : Accounts uid t rates b) (huid : call.uid ≠ uid) :
    Accounts uid t (udpRateLimitExceeded rates call).1 b := by
  refine ⟨?_, h.level, h.last⟩
  rw [← h.entry]
  congr 1
  unfold udpRateLimitExceeded
  cases rates.find? (fun rate => rate.uid = call.uid) with
  | none =>
    by_cases hkmalloc : call.kmalloc
    · dsimp only
      rw [if_pos hkmalloc, List.find?_cons_of_neg (by simpa using huid)]
    · dsimp only
      rw [if_neg hkmalloc]
  | some rate =>
    refine find?_updateFirst_of_disjoint (fun rate => ?_) (fun rate hrate => ?_) rates
    · rw [UdpUidRate.uid_spend, UdpUidRate.uid_regenerate]
      exact id
    · simpa [of_decide_eq_true hrate] using huid

/-- The calls of `uid` come in order, from `t` on, at times that can be scaled. -/
structure Clocked (uid : UInt32) (t : ℕ) (calls : List UdpCall) : Prop where
  later : ∀ c ∈ calls, c.uid = uid → t ≤ c.now.toNat
  sorted : (calls.filter fun c => c.uid = uid).Pairwise fun c d => c.now ≤ d.now
  bound : ∀ c ∈ calls, c.uid = uid → c.now.toNat * 1000 < 2 ^ 63

theorem Clocked.own {calls : List UdpCall} (h : Clocked uid t (call :: calls)) (huid : call.uid = uid) :
    t ≤ call.now.toNat ∧ call.now.toNat * 1000 < 2 ^ 63 ∧ Clocked uid call.now.toNat calls := by
  obtain ⟨hlater, hsorted, hbound⟩ := h
  rw [List.filter_cons_of_pos (by simpa using huid)] at hsorted
  obtain ⟨hfirst, hrest⟩ := List.pairwise_cons.1 hsorted
  refine ⟨hlater call List.mem_cons_self huid, hbound call List.mem_cons_self huid, ?_, hrest,
    fun c hc => hbound c (List.mem_cons_of_mem _ hc)⟩
  intro c hc hcuid
  exact UInt64.le_iff_toNat_le.1 (hfirst c (List.mem_filter.2 ⟨hc, by simpa using hcuid⟩))

theorem Clocked.other {calls : List UdpCall} (h : Clocked uid t (call :: calls)) (huid : call.uid ≠ uid) :
    Clocked uid t calls := by
  obtain ⟨hlater, hsorted, hbound⟩ := h
  rw [List.filter_cons_of_neg (by simpa using huid)] at hsorted
  exact ⟨fun c hc => hlater c (List.mem_cons_of_mem _ hc), hsorted, fun c hc => hbound c (List.mem_cons_of_mem _ hc)⟩

theorem Accounts.decisions {calls : List UdpCall} (h : Accounts uid t rates b) (hclock : Clocked uid t calls)
    (hwrap : NoWraps uid rates calls) :
    udpDecisions uid rates calls = bucketDecisions b (calls.filter fun c => c.uid = uid) := by
  induction calls generalizing t rates b with
  | nil => rfl
  | cons call calls ih =>
    rw [udpDecisions]
    dsimp only
    by_cases huid : call.uid = uid
    · obtain ⟨ht, hbound, hrest⟩ := hclock.own huid
      obtain ⟨hdecision, hafter⟩ := h.own huid ht hbound (hwrap.1 huid)
      rw [List.filter_cons_of_pos (by simpa using huid), if_pos huid, bucketDecisions, ← hdecision,
        List.singleton_append, ih hafter hrest hwrap.2]
    · rw [List.filter_cons_of_neg (by simpa using huid), if_neg huid, List.nil_append]
      exact ih (h.other huid) (hclock.other huid) hwrap.2

theorem bucketCall_of_idle (hidle : ∀ x, b = some x → x.last + 500000000 ≤ call.now.toNat) :
    (bucketCall b call).2 = false := by
  cases b with
  | none => rfl
  | some x =>
    have hadmitted : ((x.refill 250000 2000 call.now.toNat).take 1000).2 = true :=
      Bucket.take_of_idle (by decide) (by decide) (hidle x rfl)
    rw [bucketCall]
    dsimp only
    rw [hadmitted]
    rfl

theorem Accounts.idle {pre post : List UdpCall} (h : Accounts uid t rates b)
    (hclock : Clocked uid t (pre ++ call :: post))
    (hwrap : NoWraps uid rates (pre ++ call :: post)) (huid : call.uid = uid)
    (hb : ∀ x, b = some x → t + 500000000 ≤ call.now.toNat)
    (hidle : ∀ d ∈ pre, d.uid = uid → d.now.toNat + 500000000 ≤ call.now.toNat) :
    (udpRateLimitExceeded (udpRatesAfter rates pre) call).2 = false := by
  induction pre generalizing t rates b with
  | nil =>
    obtain ⟨ht, hbound, -⟩ := hclock.own huid
    rw [udpRatesAfter, List.foldl_nil, (h.own huid ht hbound (hwrap.1 huid)).1]
    exact bucketCall_of_idle fun x hx => (Nat.add_le_add_right (h.last x hx) _).trans (hb x hx)
  | cons d pre ih =>
    rw [udpRatesAfter, List.foldl_cons]
    have hidle' : ∀ d ∈ pre, d.uid = uid → d.now.toNat + 500000000 ≤ call.now.toNat :=
      fun c hc => hidle c (List.mem_cons_of_mem _ hc)
    by_cases hd : d.uid = uid
    · obtain ⟨ht, hbound, hrest⟩ := hclock.own hd
      exact ih (h.own hd ht hbound (hwrap.1 hd)).2 hrest hwrap.2 (fun _ _ => hidle d List.mem_cons_self hd) hidle'
    · exact ih (h.other hd) (hclock.other hd) hwrap.2 hb hidle'

/-- As long as no sum wraps, the limiter is a token bucket. -/
theorem udpRateLimitExceeded_agrees {calls : List UdpCall} (hnew : ∀ rate ∈ rates, rate.uid ≠ uid)
    (hsorted : (calls.filter fun c => c.uid = uid).Pairwise fun c d => c.now ≤ d.now)
    (hbound : ∀ c ∈ calls, c.uid = uid → c.now.toNat * 1000 < 2 ^ 63) (hwrap : NoWraps uid rates calls) :
    udpDecisions uid rates calls = bucketDecisions none (calls.filter fun c => c.uid = uid) ∧
      ∀ pre call post, calls = pre ++ call :: post → call.uid = uid →
        (∀ d ∈ pre, d.uid = uid → d.now.toNat + 500000000 ≤ call.now.toNat) →
        (udpRateLimitExceeded (udpRatesAfter rates pre) call).2 = false := by
  have hfresh : Accounts uid 0 rates none := by
    refine ⟨?_, nofun, nofun⟩
    rw [List.find?_eq_none.2 (by simpa using hnew)]
    rfl
  have hclock : Clocked uid 0 calls := ⟨fun _ _ _ => Nat.zero_le _, hsorted, hbound⟩
  refine ⟨hfresh.decisions hclock hwrap, ?_⟩
  rintro pre call post rfl huid hidle
  exact hfresh.idle hclock hwrap huid nofun hidle

/-- Two sends, and one half a second later. -/
theorem udpRateLimitExceeded_agrees_sample :
    udpDecisions 10100 [] [⟨10100, 1000, true⟩, ⟨10200, 2000, true⟩, ⟨10100, 3000, true⟩, ⟨10100, 500003000, true⟩] =
      [false, false, false] := by
  refine (udpRateLimitExceeded_agrees (by simp) ?_ ?_ ?_).1.trans ?_
  · decide
  · decide
  · decide +kernel
  · decide +kernel

/-- A send, and another one after an idle time of two hours and 23 minutes. -/
theorem udpRateLimitExceeded_wraps :
    udpDecisions 10100 [] [⟨10100, 0, true⟩, ⟨10100, 8589436592000, true⟩] = [false, true] ∧
      bucketDecisions none [⟨10100, 0, true⟩, ⟨10100, 8589436592000, true⟩] = [false, false] := by
  decide +kernel

end Runs

/-! ### The patch -/

namespace Kpatch

def vhUdpBucketMax : Int32 := 250
def vhUdpRegenNs : UInt64 := 2000000
def vhSkProbeMark : UInt32 := 0x80000000

/-- `struct vh_udp_uid_rate`. -/
structure VhUdpUidRate where
  uid : UInt32
  tokens : Int32
  lastRegen : Int64

/-- What a call of `vpnhide_udp_sendmsg` meets. -/
structure UdpSend where
  policy : Option PolicySnapshot
  uid : UInt32
  skMark : UInt32
  kmalloc : Bool
  /-- `ktime_get()` in `rl_find_or_alloc` -/
  allocTime : Int64
  now : Int64

/-- The call is not let through by the checks at the top. -/
def UdpSend.limited (send : UdpSend) : Bool :=
  vpnhideActiveHooksMask send.policy &&& HookIdx.udpSendmsg.bit ≠ 0 && send.skMark &&& vhSkProbeMark = 0 &&
    isHookActive send.policy .udpSendmsg send.uid && isTargetUidVal send.policy send.uid

/-- The entry, and the table with it. -/
def rlFindOrAlloc (table : List VhUdpUidRate) (send : UdpSend) : Option (VhUdpUidRate × List VhUdpUidRate) :=
  match table.find? fun rate => rate.uid = send.uid with
  | some rate => some (rate, table)
  | none =>
    if send.kmalloc then
      let rate := { uid := send.uid, tokens := vhUdpBucketMax, lastRegen := send.allocTime }
      some (rate, rate :: table)
    else none

namespace VhUdpUidRate

/-- The quotient is that of `unsigned long long`. -/
def regen (rate : VhUdpUidRate) (now : Int64) : Int32 :=
  let elapsedNs := now - rate.lastRegen
  (elapsedNs.toUInt64 / vhUdpRegenNs).toUInt32.toInt32

def regenerate (rate : VhUdpUidRate) (now : Int64) : VhUdpUidRate :=
  let regen := rate.regen now
  if regen > 0 then
    { rate with
      tokens := min (rate.tokens + regen) vhUdpBucketMax
      lastRegen := rate.lastRegen + (regen.toInt64.toUInt64 * vhUdpRegenNs).toInt64 }
  else rate

/-- With `drop`. -/
def spend (rate : VhUdpUidRate) : VhUdpUidRate × Bool :=
  if rate.tokens > 0 then ({ rate with tokens := rate.tokens - 1 }, false) else (rate, true)

end VhUdpUidRate

/-- The part under the lock; `none` if there is no bucket. -/
def rlSend (table : List VhUdpUidRate) (send : UdpSend) : Option (List VhUdpUidRate × Bool) :=
  match rlFindOrAlloc table send with
  | none => none
  | some (rate, table) =>
    let spent := (rate.regenerate send.now).spend
    some (updateFirst (fun rate => rate.uid = send.uid) (fun _ => spent.1) table, spent.2)

def vpnhideUdpSendmsg (table : List VhUdpUidRate) (send : UdpSend) : List VhUdpUidRate × Bool :=
  if !send.limited then (table, false) else (rlSend table send).getD (table, false)

/-- The times at which calls of `uid` reached the bucket, and whether they were dropped. -/
def udpTrace (uid : UInt32) : List VhUdpUidRate → List UdpSend → List (Int64 × Bool)
  | _, [] => []
  | table, send :: sends =>
    (if send.limited ∧ send.uid = uid then ((rlSend table send).map fun r => (send.now, r.2)).toList else []) ++
      udpTrace uid (vpnhideUdpSendmsg table send).1 sends

def udpTableAfter (table : List VhUdpUidRate) (sends : List UdpSend) : List VhUdpUidRate :=
  sends.foldl (fun table send => (vpnhideUdpSendmsg table send).1) table

theorem toNat_sub_toUInt64 {a b : Int64} (h : b.toInt ≤ a.toInt) :
    ((a - b).toUInt64.toNat : ℤ) = a.toInt - b.toInt := by
  have ha := BitVec.toInt_eq_toNat_cond a.toBitVec
  have hb := BitVec.toInt_eq_toNat_cond b.toBitVec
  have hsub : (a - b).toUInt64.toNat = (a.toBitVec - b.toBitVec).toNat := rfl
  have ha' : a.toInt = a.toBitVec.toInt := rfl
  have hb' : b.toInt = b.toBitVec.toInt := rfl
  have hla := a.toBitVec.isLt
  have hlb := b.toBitVec.isLt
  rw [hsub, BitVec.toNat_sub]
  split_ifs at ha hb <;> omega

theorem bmod_spec (x : ℤ) :
    ∃ k, x = x.bmod (2 ^ 32) + 2 ^ 32 * k ∧ -2 ^ 31 ≤ x.bmod (2 ^ 32) ∧ x.bmod (2 ^ 32) < 2 ^ 31 :=
  ⟨x.bdiv (2 ^ 32), (Int.bmod_add_bdiv x (2 ^ 32)).symm, Int.le_bmod (m := 2 ^ 32) (by decide),
    Int.bmod_lt (m := 2 ^ 32) (by decide)⟩

namespace VhUdpUidRate
variable {rate : VhUdpUidRate} {now : Int64}

theorem toInt_regen (h : rate.lastRegen.toInt ≤ now.toInt) :
    (rate.regen now).toInt = ((now.toInt - rate.lastRegen.toInt) / 2000000).bmod (2 ^ 32) := by
  have hregen : vhUdpRegenNs.toNat = 2000000 := by decide +kernel
  have hint (x : UInt32) : x.toInt32.toInt = (x.toNat : ℤ).bmod (2 ^ 32) := BitVec.toInt_eq_toNat_bmod x.toBitVec
  rw [regen, hint, UInt64.toNat_toUInt32, UInt64.toNat_div, hregen, ← toNat_sub_toUInt64 h, Int.natCast_emod,
    Int.natCast_ediv, Int.emod_bmod, Nat.cast_ofNat]

theorem toInt_lastRegen (hle : rate.lastRegen.toInt ≤ now.toInt) (hpos : 0 < (rate.regen now).toInt)
    (hfits : (rate.regen now).toInt * 2000000 ≤ now.toInt - rate.lastRegen.toInt) :
    (rate.lastRegen + ((rate.regen now).toInt64.toUInt64 * vhUdpRegenNs).toInt64).toInt =
      rate.lastRegen.toInt + (rate.regen now).toInt * 2000000 := by
  have hns : vhUdpRegenNs.toInt64.toInt = 2000000 := by decide +kernel
  have hlt := (rate.regen now).toInt_lt
  have hnow := now.toInt_lt
  have hlast := rate.lastRegen.le_toInt
  have hproduct : ((rate.regen now).toInt * 2000000).bmod (2 ^ 64) = (rate.regen now).toInt * 2000000 :=
    Int.bmod_eq_of_le (by omega) (by omega)
  rw [Int64.toInt_add, UInt64.toInt64_mul, Int64.toInt64_toUInt64, Int64.toInt_mul, Int32.toInt_toInt64, hns, hproduct]
  exact Int.bmod_eq_of_le (by omega) (by omega)

/-- What can be spent. A sum that overflows is negative. -/
def level (rate : VhUdpUidRate) : ℤ := max rate.tokens.toInt 0

theorem toInt_min (a b : Int32) : (min a b).toInt = min a.toInt b.toInt := by
  have hmin : min a b = if a ≤ b then a else b := rfl
  rw [hmin]
  by_cases hab : a ≤ b
  · rw [if_pos hab, min_eq_left (Int32.le_iff_toInt_le.1 hab)]
  · rw [if_neg hab, min_eq_right (le_of_not_ge fun h => hab (Int32.le_iff_toInt_le.2 h))]

theorem tokens_regenerate (now : Int64) (htokens : rate.tokens.toInt ≤ 250) :
    (rate.regenerate now).tokens.toInt ≤ 250 ∧
      (rate.regenerate now).level ≤ rate.level + max (rate.regen now).toInt 0 := by
  have hmax : vhUdpBucketMax.toInt = 250 := by decide +kernel
  unfold regenerate level
  by_cases hregen : rate.regen now > 0
  · have hpos : 0 < (rate.regen now).toInt := Int32.lt_iff_toInt_lt.1 hregen
    have hlt := (rate.regen now).toInt_lt
    have hle := rate.tokens.le_toInt
    -- the sum is below `2 ^ 31 + 250`: it wraps to a negative number, or not at all
    obtain ⟨k, hk, hlow, hhigh⟩ := bmod_spec (rate.tokens.toInt + (rate.regen now).toInt)
    dsimp only
    rw [if_pos hregen, toInt_min, hmax, Int32.toInt_add]
    omega
  · dsimp only
    rw [if_neg hregen]
    omega

theorem spend_level (htokens : rate.tokens.toInt ≤ 250) :
    rate.spend.1.tokens.toInt ≤ 250 ∧ (if rate.spend.2 then 0 else 1) + rate.spend.1.level = rate.level := by
  unfold spend level
  by_cases hpos : rate.tokens > 0
  · have hpos' : 0 < rate.tokens.toInt := Int32.lt_iff_toInt_lt.1 hpos
    have hone : (1 : Int32).toInt = 1 := by decide
    have hsub : (rate.tokens - 1).toInt = rate.tokens.toInt - 1 := by
      rw [Int32.toInt_sub, hone]
      exact Int.bmod_eq_of_le (by omega) (by omega)
    rw [if_pos hpos]
    dsimp only
    rw [hsub, if_neg (by decide)]
    omega
  · rw [if_neg hpos]
    dsimp only
    rw [if_pos rfl]
    omega

theorem lastRegen_spend : rate.spend.1.lastRegen = rate.lastRegen := by
  unfold spend
  split_ifs <;> rfl

/-- The state that a call at time `t` leaves: what is left to account for is no whole period, or reads as a negative
number of them. -/
structure Settled (base t : ℤ) (rate : VhUdpUidRate) : Prop where
  tokens : rate.tokens.toInt ≤ 250
  last : rate.lastRegen.toInt ≤ t
  pending : ((t - rate.lastRegen.toInt) / 2000000).bmod (2 ^ 32) ≤ 0
  aligned : 2000000 ∣ rate.lastRegen.toInt - base

theorem Settled.regen_le {base t : ℤ} (h : Settled base t rate) (ht : t ≤ now.toInt) :
    max (rate.regen now).toInt 0 ≤
      (now.toInt - rate.lastRegen.toInt) / 2000000 - (t - rate.lastRegen.toInt) / 2000000 := by
  have hlast := h.last
  have hpending := h.pending
  have hmono : (t - rate.lastRegen.toInt) / 2000000 ≤ (now.toInt - rate.lastRegen.toInt) / 2000000 :=
    Int.ediv_le_ediv (by decide) (by omega)
  obtain ⟨k, hk, hlow, hhigh⟩ := bmod_spec ((t - rate.lastRegen.toInt) / 2000000)
  obtain ⟨k', hk', hlow', hhigh'⟩ := bmod_spec ((now.toInt - rate.lastRegen.toInt) / 2000000)
  rw [toInt_regen (hlast.trans ht)]
  generalize (t - rate.lastRegen.toInt) / 2000000 = before at *
  generalize (now.toInt - rate.lastRegen.toInt) / 2000000 = after at *
  omega

theorem Settled.lastRegen_regenerate {base t : ℤ} (h : Settled base t rate) (ht : t ≤ now.toInt) :
    (rate.regenerate now).lastRegen.toInt = rate.lastRegen.toInt + max (rate.regen now).toInt 0 * 2000000 := by
  have hlast := h.last
  have hle := h.regen_le ht
  unfold regenerate
  by_cases hregen : rate.regen now > 0
  · have hpos : 0 < (rate.regen now).toInt := Int32.lt_iff_toInt_lt.1 hregen
    have hzero : 0 ≤ (t - rate.lastRegen.toInt) / 2000000 := Int.ediv_nonneg (by omega) (by decide)
    rw [max_eq_left hpos.le] at hle ⊢
    dsimp only
    rw [if_pos hregen]
    exact toInt_lastRegen (hlast.trans ht) hpos (by omega)
  · have hneg : (rate.regen now).toInt ≤ 0 := not_lt.1 fun hpos => hregen (Int32.lt_iff_toInt_lt.2 hpos)
    dsimp only
    rw [if_neg hregen, max_eq_right hneg]
    omega

theorem Settled.send {base t : ℤ} (h : Settled base t rate) (ht : t ≤ now.toInt) :
    Settled base now.toInt (rate.regenerate now).spend.1 ∧
      (if (rate.regenerate now).spend.2 then 0 else 1) + (rate.regenerate now).spend.1.level ≤
        min 250 (rate.level + (ticks 2000000 base now.toInt - ticks 2000000 base t)) := by
  have hlast := h.last
  have hregen := h.regen_le ht
  have hlastRegen := h.lastRegen_regenerate ht
  obtain ⟨htokens, hlevel⟩ := tokens_regenerate now h.tokens
  obtain ⟨htokens', hlevel'⟩ := spend_level htokens
  have hzero : 0 ≤ (t - rate.lastRegen.toInt) / 2000000 := Int.ediv_nonneg (by omega) (by decide)
  have hquotient := toInt_regen (hlast.trans ht)
  refine ⟨⟨htokens', ?_, ?_, ?_⟩, ?_⟩
  · rw [lastRegen_spend, hlastRegen]
    omega
  · -- the low 32 bits of the quotient are taken off, or stay as they are
    have hrest : (now.toInt - (rate.lastRegen.toInt + max (rate.regen now).toInt 0 * 2000000)) / 2000000 =
        (now.toInt - rate.lastRegen.toInt) / 2000000 - max (rate.regen now).toInt 0 := by omega
    obtain ⟨k, hk, -, -⟩ := bmod_spec ((now.toInt - rate.lastRegen.toInt) / 2000000)
    rw [lastRegen_spend, hlastRegen, hrest]
    rcases le_or_gt (rate.regen now).toInt 0 with hneg | hpos
    · rw [max_eq_right hneg, sub_zero, ← hquotient]
      exact hneg
    · have hmul : (now.toInt - rate.lastRegen.toInt) / 2000000 - (rate.regen now).toInt = 2 ^ 32 * k := by omega
      rw [max_eq_left hpos.le, hmul]
      exact (Int.mul_bmod_right ..).le
  · rw [lastRegen_spend, hlastRegen]
    have haligned := h.aligned
    omega
  · rw [ticks_of_aligned h.aligned, ticks_of_aligned h.aligned, hlevel']
    have hcap : (rate.regenerate now).level ≤ 250 := max_le htokens (by decide)
    omega

theorem Settled.fresh (uid : UInt32) (allocTime : Int64) :
    Settled allocTime.toInt allocTime.toInt { uid := uid, tokens := vhUdpBucketMax, lastRegen := allocTime } where
  tokens := (by decide +kernel : vhUdpBucketMax.toInt ≤ 250)
  last := le_rfl
  pending := by simp
  aligned := by simp

end VhUdpUidRate

section Table
variable {uid : UInt32} {table table' : List VhUdpUidRate} {send : UdpSend} {drop : Bool}

theorem uid_spend (rate : VhUdpUidRate) (now : Int64) : (rate.regenerate now).spend.1.uid = rate.uid := by
  unfold VhUdpUidRate.spend VhUdpUidRate.regenerate
  dsimp only
  split_ifs <;> rfl

theorem rlFindOrAlloc_eq_some {rate : VhUdpUidRate} (h : rlFindOrAlloc table send = some (rate, table')) :
    table'.find? (fun r => r.uid = send.uid) = some rate ∧
      (table.find? (fun r => r.uid = send.uid) = some rate ∨
        table.find? (fun r => r.uid = send.uid) = none ∧ rate = ⟨send.uid, vhUdpBucketMax, send.allocTime⟩) ∧
      ∀ uid ≠ send.uid, table'.find? (fun r => r.uid = uid) = table.find? (fun r => r.uid = uid) := by
  unfold rlFindOrAlloc at h
  cases hfind : table.find? (fun r => r.uid = send.uid) with
  | some old =>
    rw [hfind] at h
    cases h
    exact ⟨hfind, .inl rfl, fun _ _ => rfl⟩
  | none =>
    rw [hfind] at h
    dsimp only at h
    split_ifs at h
    cases h
    refine ⟨List.find?_cons_of_pos (by simp), .inr ⟨rfl, rfl⟩, fun uid hne => ?_⟩
    exact List.find?_cons_of_neg (by simpa using hne.symm)

/-- The entry that a call leaves comes from the one it found, or from a full one. -/
theorem rlSend_eq_some (h : rlSend table send = some (table', drop)) :
    (∃ rate, (table.find? (fun r => r.uid = send.uid) = some rate ∨
        table.find? (fun r => r.uid = send.uid) = none ∧ rate = ⟨send.uid, vhUdpBucketMax, send.allocTime⟩) ∧
      table'.find? (fun r => r.uid = send.uid) = some (rate.regenerate send.now).spend.1 ∧
      drop = (rate.regenerate send.now).spend.2) ∧
    ∀ uid ≠ send.uid, table'.find? (fun r => r.uid = uid) = table.find? (fun r => r.uid = uid) := by
  unfold rlSend at h
  cases hfound : rlFindOrAlloc table send with
  | none =>
    rw [hfound] at h
    cases h
  | some found =>
    obtain ⟨rate, table₁⟩ := found
    rw [hfound] at h
    obtain ⟨rfl, rfl⟩ := Prod.mk.inj (Option.some.inj h)
    obtain ⟨hfind, hcases, hother⟩ := rlFindOrAlloc_eq_some hfound
    have huid : rate.uid = send.uid := by simpa using List.find?_some hfind
    have hspend : (rate.regenerate send.now).spend.1.uid = send.uid := (uid_spend rate send.now).trans huid
    have hkeep : ∀ r : VhUdpUidRate, decide (r.uid = send.uid) →
        decide ((rate.regenerate send.now).spend.1.uid = send.uid) := fun _ _ => decide_eq_true hspend
    refine ⟨⟨rate, hcases, ?_, rfl⟩, fun uid hne => ?_⟩
    · rw [find?_updateFirst (p := fun r : VhUdpUidRate => decide (r.uid = send.uid)) hkeep, hfind, Option.map_some]
    · rw [← hother uid hne]
      refine find?_updateFirst_of_disjoint (p := fun r : VhUdpUidRate => decide (r.uid = send.uid)) hkeep
        (fun r hr => ?_) _
      simpa [of_decide_eq_true hr] using hne.symm

theorem rlSend_of_found {rate : VhUdpUidRate} (h : table.find? (fun r => r.uid = send.uid) = some rate) :
    ∃ table' drop, rlSend table send = some (table', drop) := by
  rw [rlSend, rlFindOrAlloc, h]
  exact ⟨_, _, rfl⟩

theorem vpnhideUdpSendmsg_eq (h : send.limited) :
    vpnhideUdpSendmsg table send = (rlSend table send).getD (table, false) := by
  rw [vpnhideUdpSendmsg, h]
  rfl

theorem find?_vpnhideUdpSendmsg_of_not (h : ¬ (send.limited ∧ send.uid = uid)) :
    (vpnhideUdpSendmsg table send).1.find? (fun r => r.uid = uid) = table.find? (fun r => r.uid = uid) := by
  by_cases hlimited : send.limited
  · have huid : uid ≠ send.uid := fun heq => h ⟨hlimited, heq.symm⟩
    rw [vpnhideUdpSendmsg_eq hlimited]
    cases hsend : rlSend table send with
    | none => rfl
    | some r => exact (rlSend_eq_some hsend).2 uid huid
  · rw [vpnhideUdpSendmsg, Bool.eq_false_iff.2 hlimited]
    rfl

/-! ### Runs -/

/-- The calls of `uid` read the clock in order, from `t` on. -/
structure SendClock (uid : UInt32) (t : ℤ) (sends : List UdpSend) : Prop where
  later : ∀ c ∈ sends, c.uid = uid → t ≤ c.allocTime.toInt
  within : ∀ c ∈ sends, c.uid = uid → c.allocTime.toInt ≤ c.now.toInt
  sorted : (sends.filter fun c => c.uid = uid).Pairwise fun c d => c.now.toInt ≤ d.allocTime.toInt

theorem SendClock.own {t : ℤ} {sends : List UdpSend} (h : SendClock uid t (send :: sends)) (huid : send.uid = uid) :
    t ≤ send.allocTime.toInt ∧ send.allocTime.toInt ≤ send.now.toInt ∧ SendClock uid send.now.toInt sends := by
  obtain ⟨hlater, hwithin, hsorted⟩ := h
  rw [List.filter_cons_of_pos (by simpa using huid)] at hsorted
  obtain ⟨hfirst, hrest⟩ := List.pairwise_cons.1 hsorted
  refine ⟨hlater send List.mem_cons_self huid, hwithin send List.mem_cons_self huid, ?_,
    fun c hc => hwithin c (List.mem_cons_of_mem _ hc), hrest⟩
  intro c hc hcuid
  exact hfirst c (List.mem_filter.2 ⟨hc, by simpa using hcuid⟩)

theorem SendClock.tail {t : ℤ} {sends : List UdpSend} (h : SendClock uid t (send :: sends)) :
    SendClock uid t sends := by
  obtain ⟨hlater, hwithin, hsorted⟩ := h
  refine ⟨fun c hc => hlater c (List.mem_cons_of_mem _ hc), fun c hc => hwithin c (List.mem_cons_of_mem _ hc), ?_⟩
  rw [List.filter_cons] at hsorted
  split_ifs at hsorted
  · exact (List.pairwise_cons.1 hsorted).2
  · exact hsorted

/-- The entry of `uid`, if there is one, is settled at `t`. -/
def SettledAt (uid : UInt32) (t : ℤ) (table : List VhUdpUidRate) : Prop :=
  ∀ rate, table.find? (fun r => r.uid = uid) = some rate → ∃ base, rate.Settled base t

theorem SettledAt.limited {t : ℤ} (h : SettledAt uid t table) (huid : send.uid = uid) (ht : t ≤ send.allocTime.toInt)
    (hnow : send.allocTime.toInt ≤ send.now.toInt) (hsend : rlSend table send = some (table', drop)) :
    ∃ base rate, table'.find? (fun r => r.uid = uid) = some rate ∧ rate.Settled base send.now.toInt ∧
      (if drop then 0 else 1) + rate.level ≤ 250 := by
  subst huid
  obtain ⟨⟨rate, hrate, hfind, rfl⟩, -⟩ := rlSend_eq_some hsend
  obtain ⟨base, s, hs, hsettled⟩ : ∃ base s, s ≤ send.now.toInt ∧ rate.Settled base s := by
    rcases hrate with hfound | ⟨-, rfl⟩
    · obtain ⟨base, hsettled⟩ := h rate hfound
      exact ⟨base, t, ht.trans hnow, hsettled⟩
    · exact ⟨_, _, hnow, .fresh ..⟩
  obtain ⟨hafter, hlevel⟩ := hsettled.send hs
  exact ⟨base, _, hfind, hafter, hlevel.trans (min_le_left ..)⟩

theorem SettledAt.step {t : ℤ} {sends : List UdpSend} (h : SettledAt uid t table)
    (hclock : SendClock uid t (send :: sends)) :
    ∃ t', SettledAt uid t' (vpnhideUdpSendmsg table send).1 ∧ SendClock uid t' sends := by
  by_cases hlimited : send.limited ∧ send.uid = uid
  · obtain ⟨ht, hnow, hrest⟩ := hclock.own hlimited.2
    rw [vpnhideUdpSendmsg_eq hlimited.1]
    cases hsend : rlSend table send with
    | none => exact ⟨t, h, hclock.tail⟩
    | some r =>
      obtain ⟨base, rate, hfind, hsettled, -⟩ := h.limited hlimited.2 ht hnow hsend
      refine ⟨send.now.toInt, fun rate' hrate' => ?_, hrest⟩
      obtain rfl := Option.some.inj (hfind.symm.trans hrate')
      exact ⟨base, hsettled⟩
  · refine ⟨t, fun rate hrate => h rate ?_, hclock.tail⟩
    rwa [find?_vpnhideUdpSendmsg_of_not hlimited] at hrate

theorem SettledAt.after {t : ℤ} {pre post : List UdpSend} (h : SettledAt uid t table)
    (hclock : SendClock uid t (pre ++ post)) : ∃ t', SettledAt uid t' (udpTableAfter table pre) := by
  induction pre generalizing t table with
  | nil => exact ⟨t, h⟩
  | cons send pre ih =>
    obtain ⟨t', hstep, hrest⟩ := h.step hclock
    exact ih hstep hrest

def admitted (trace : List (Int64 × Bool)) : ℤ := trace.countP fun call => !call.2

theorem admitted_cons (call : Int64 × Bool) (trace : List (Int64 × Bool)) :
    admitted (call :: trace) = (if call.2 then 0 else 1) + admitted trace := by
  obtain ⟨now, drop⟩ := call
  cases drop <;> simp [admitted, add_comm]

theorem udpTrace_of_reached {sends : List UdpSend} (hlimited : send.limited ∧ send.uid = uid)
    (hsend : rlSend table send = some (table', drop)) :
    udpTrace uid table (send :: sends) = (send.now, drop) :: udpTrace uid table' sends := by
  rw [udpTrace, if_pos hlimited, vpnhideUdpSendmsg_eq hlimited.1, hsend]
  rfl

theorem udpTrace_of_not {sends : List UdpSend} (hlimited : ¬ (send.limited ∧ send.uid = uid)) :
    udpTrace uid table (send :: sends) = udpTrace uid (vpnhideUdpSendmsg table send).1 sends := by
  rw [udpTrace, if_neg hlimited, List.nil_append]

/-- Once there is an entry, what is admitted up to the instant `e` was in the bucket or has been gained by then. -/
theorem admitted_le {base t e : ℤ} {rate : VhUdpUidRate} {sends : List UdpSend} {L : List (Int64 × Bool)}
    (hfind : table.find? (fun r => r.uid = uid) = some rate) (hsettled : rate.Settled base t)
    (hclock : SendClock uid t sends) (hL : L <+: udpTrace uid table sends) (he : ∀ call ∈ L, call.1.toInt ≤ e)
    (hte : t ≤ e) :
    admitted L ≤ rate.level + (ticks 2000000 base e - ticks 2000000 base t) := by
  induction sends generalizing table rate t L with
  | nil =>
    obtain rfl := List.prefix_nil.1 hL
    have hmono := ticks_mono (by decide : (0 : ℤ) < 2000000) base hte
    have hlevel : 0 ≤ rate.level := le_max_right ..
    rw [admitted, List.countP_nil]
    omega
  | cons send sends ih =>
    by_cases hlimited : send.limited ∧ send.uid = uid
    · obtain ⟨hlimited, rfl⟩ := hlimited
      obtain ⟨ht, hnow, hrest⟩ := hclock.own rfl
      obtain ⟨table', drop, hsend⟩ := rlSend_of_found hfind
      obtain ⟨⟨rate', hrate', hfind', rfl⟩, -⟩ := rlSend_eq_some hsend
      obtain rfl : rate' = rate := by
        rcases hrate' with hfound | ⟨hnone, -⟩
        · exact Option.some.inj (hfound.symm.trans hfind)
        · rw [hfind] at hnone
          cases hnone
      obtain ⟨hafter, hlevel⟩ := hsettled.send (ht.trans hnow)
      rw [udpTrace_of_reached ⟨hlimited, rfl⟩ hsend] at hL
      cases L with
      | nil =>
        have hmono := ticks_mono (by decide : (0 : ℤ) < 2000000) base hte
        have hzero : 0 ≤ rate'.level := le_max_right ..
        rw [admitted, List.countP_nil]
        omega
      | cons call L =>
        obtain ⟨rfl, hrestL⟩ := List.cons_prefix_cons.1 hL
        obtain ⟨hfirst, hothers⟩ := List.forall_mem_cons.1 he
        have hih := ih hfind' hafter hrest hrestL hothers hfirst
        rw [admitted_cons]
        dsimp only
        omega
    · rw [udpTrace_of_not hlimited] at hL
      exact ih (by rw [find?_vpnhideUdpSendmsg_of_not hlimited, hfind]) hsettled hclock.tail hL he hte

theorem SettledAt.window_le {t e : ℤ} {sends : List UdpSend} {pre w post : List (Int64 × Bool)} {first : Int64 × Bool}
    (h : SettledAt uid t table) (hclock : SendClock uid t sends)
    (htrace : udpTrace uid table sends = pre ++ first :: w ++ post) (he : ∀ call ∈ first :: w, call.1.toInt ≤ e) :
    admitted (first :: w) ≤ 250 + (e - first.1.toInt) / 2000000 + 1 := by
  induction sends generalizing table t pre with
  | nil =>
    rw [udpTrace] at htrace
    simp at htrace
  | cons send sends ih =>
    obtain ⟨t', hstep, hrest⟩ := h.step hclock
    by_cases hlimited : send.limited ∧ send.uid = uid
    · cases hsend : rlSend table send with
      | none =>
        have hnone : udpTrace uid table (send :: sends) = udpTrace uid (vpnhideUdpSendmsg table send).1 sends := by
          rw [udpTrace, if_pos hlimited, hsend]
          rfl
        exact ih hstep hrest (hnone ▸ htrace)
      | some r =>
        obtain ⟨table', drop⟩ := r
        rw [udpTrace_of_reached hlimited hsend] at htrace
        cases pre with
        | nil =>
          obtain ⟨ht, hnow, hlater⟩ := hclock.own hlimited.2
          obtain ⟨base, rate, hfind, hsettled, hlevel⟩ := h.limited hlimited.2 ht hnow hsend
          obtain ⟨rfl, hw⟩ := List.cons.inj htrace
          obtain ⟨hfirst, hothers⟩ := List.forall_mem_cons.1 he
          have hrun := admitted_le hfind hsettled hlater ⟨post, hw.symm⟩ hothers hfirst
          have hticks := ticks_sub_le (by decide : (0 : ℤ) < 2000000) base send.now.toInt e
          rw [admitted_cons]
          dsimp only
          omega
        | cons call pre =>
          rw [vpnhideUdpSendmsg_eq hlimited.1, hsend] at hstep
          exact ih hstep hrest (List.cons.inj htrace).2
    · rw [udpTrace_of_not hlimited] at htrace
      exact ih hstep hrest htrace

theorem udpTrace_times (uid : UInt32) (table : List VhUdpUidRate) (sends : List UdpSend) :
    ((udpTrace uid table sends).map Prod.fst).Sublist ((sends.filter fun c => c.uid = uid).map UdpSend.now) := by
  induction sends generalizing table with
  | nil => exact List.Sublist.refl _
  | cons send sends ih =>
    by_cases hlimited : send.limited ∧ send.uid = uid
    · rw [List.filter_cons_of_pos (by simpa using hlimited.2), List.map_cons, udpTrace, if_pos hlimited,
        List.map_append]
      cases rlSend table send with
      | none => exact (ih _).cons _
      | some r => exact (ih _).cons_cons _
    · rw [udpTrace_of_not hlimited]
      exact (ih _).trans (((List.sublist_cons_self ..).filter _).map _)

/-- Among consecutive calls from `s` to `t`, at most a full bucket is admitted and what `t - s` brings. -/
theorem vpnhideUdpSendmsg_admits_le (uid : UInt32) (table : List VhUdpUidRate) (sends : List UdpSend)
    (hnew : ∀ rate ∈ table, rate.uid ≠ uid)
    (hwithin : ∀ c ∈ sends, c.uid = uid → c.allocTime ≤ c.now)
    (hsorted : (sends.filter fun c => c.uid = uid).Pairwise fun c d => c.now ≤ d.allocTime) :
    (∀ pre window post s t, udpTrace uid table sends = pre ++ window ++ post → window.head? = some s →
      window.getLast? = some t → admitted window ≤ 250 + (t.1.toInt - s.1.toInt) / 2000000 + 1) ∧
    ∀ pre post rate, sends = pre ++ post → (udpTableAfter table pre).find? (fun r => r.uid = uid) = some rate →
      rate.tokens ≤ 250 := by
  -- before the first call there is no entry
  have hstart : SettledAt uid (-2 ^ 63) table := by
    intro rate hrate
    rw [List.find?_eq_none.2 (by simpa using hnew)] at hrate
    cases hrate
  have hclock : SendClock uid (-2 ^ 63) sends :=
    ⟨fun c _ _ => c.allocTime.le_toInt, fun c hc huid => Int64.le_iff_toInt_le.1 (hwithin c hc huid),
      hsorted.imp Int64.le_iff_toInt_le.1⟩
  have htimes : ((sends.filter fun c => c.uid = uid).map UdpSend.now).Pairwise fun a b => a.toInt ≤ b.toInt := by
    refine List.pairwise_map.2 (hclock.sorted.imp_of_mem fun _ hd hle => hle.trans ?_)
    obtain ⟨hd, huid⟩ := List.mem_filter.1 hd
    exact hclock.within _ hd (of_decide_eq_true huid)
  refine ⟨fun pre window post s t htrace hs ht => ?_, ?_⟩
  · have hsub : (window.map Prod.fst).Sublist ((udpTrace uid table sends).map Prod.fst) := by
      rw [htrace]
      exact ((List.sublist_append_right pre window).trans (List.sublist_append_left ..)).map _
    have hwindow := List.pairwise_map.1 (htimes.sublist (hsub.trans (udpTrace_times ..)))
    have hlast : ∀ call ∈ window, call.1.toInt ≤ t.1.toInt := by
      obtain ⟨init, rfl⟩ := List.getLast?_eq_some_iff.1 ht
      intro call hcall
      rcases List.mem_append.1 hcall with hinit | hsingle
      · exact (List.pairwise_append.1 hwindow).2.2 call hinit t (List.mem_singleton_self t)
      · rw [List.mem_singleton.1 hsingle]
    obtain ⟨w, rfl⟩ := List.head?_eq_some_iff.1 hs
    exact hstart.window_le hclock htrace hlast
  · rintro pre post rate rfl hrate
    obtain ⟨t, hafter⟩ := hstart.after hclock
    obtain ⟨base, hsettled⟩ := hafter rate hrate
    exact Int32.le_iff_toInt_le.2 hsettled.tokens

/-- Two sends 4 ms apart, from a policy that limits the uid. -/
theorem vpnhideUdpSendmsg_admits_le_sample :
    let send (now : Int64) : UdpSend := ⟨some (oneTargetPolicy .udpSendmsg 10100), 10100, 0, true, now, now⟩
    udpTrace 10100 [] [send 1000, send 4001000] = [(1000, false), (4001000, false)] ∧
      admitted [(1000, false), (4001000, false)] ≤ 253 := by
  intro send
  have htrace : udpTrace 10100 [] [send 1000, send 4001000] = [(1000, false), (4001000, false)] := by decide +kernel
  have hbound := (vpnhideUdpSendmsg_admits_le 10100 [] [send 1000, send 4001000] (by simp) (by decide) (by decide)).1
    [] _ [] _ _ (htrace.trans (List.append_nil _).symm) rfl rfl
  exact ⟨htrace, hbound⟩

end Table

end Kpatch

end VpnHide
