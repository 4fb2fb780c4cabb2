import Sukko.Webhook.Delivery
/-
# The queue of the status requests

`asyncStatusUpdater` (`webhook/worker/runner.go:388`) repeats the call for the head of the queue after any error, also
when the webhook is gone.
-/

namespace Sukko.WebhookDelivery.StatusQueue
open List

structure Updater where
  rows : Rows
  statusUpdates : List StatusUpdateRequest
  applied : List StatusUpdateRequest

/-- One call of `UpdateWebhookStatus`; without `ok` it fails for another reason than the request. -/
def attempt (ok : Bool) (u : Updater) : Updater :=
  match u.statusUpdates with
  | [] => u
  | req :: rest =>
    match updateWebhookStatus u.rows req with
    | some rows => if ok then ⟨rows, rest, u.applied ++ [req]⟩ else u
    | none => u

def attempts (ok : ℕ → Bool) (u : Updater) : ℕ → Updater
  | 0 => u
  | n + 1 => attempt (ok n) (attempts ok u n)

/-- The webhook of the request exists. -/
def Known (rows : Rows) (req : StatusUpdateRequest) : Prop := (updateWebhookStatus rows req).isSome

section Updates
variable {ok : ℕ → Bool} {rows rows' : Rows} {req : StatusUpdateRequest} {queue rest : List StatusUpdateRequest} {n : ℕ}

theorem known_updateWebhookStatus (h : updateWebhookStatus rows req = some rows') (r : StatusUpdateRequest) :
    Known rows' r ↔ Known rows r := by
  simp only [updateWebhookStatus, updateStatus, Rows.set] at h
  split_ifs at h
  cases h
  have hk : ∀ w : Webhook, (if w.key = req.key then { w with status := req.status, retryCount := req.retryCount } else w).key
      = w.key := by
    intro w
    split <;> rfl
  simp only [Known, updateWebhookStatus, updateStatus, Rows.set, any_map, Function.comp_def, hk]
  split_ifs <;> simp

/-- Only the head of the queue is ever applied, and only when its webhook exists. -/
theorem attempts_spec (ok : ℕ → Bool) (rows : Rows) (queue : List StatusUpdateRequest) (n : ℕ) :
    let u := attempts ok ⟨rows, queue, []⟩ n
    u.applied ++ u.statusUpdates = queue ∧ (∀ r, Known u.rows r ↔ Known rows r) ∧ ∀ r ∈ u.applied, Known rows r := by
  induction n with
  | zero => exact ⟨rfl, fun _ => Iff.rfl, by simp [attempts]⟩
  | succ n ih =>
    obtain ⟨hq, hk, ha⟩ := ih
    simp only [attempts]
    generalize attempts ok ⟨rows, queue, []⟩ n = u at *
    unfold attempt
    split
    · exact ⟨hq, hk, ha⟩
    rename_i req rest hst
    split
    · rename_i rows' hu
      split_ifs
      · refine ⟨by simpa [hst] using hq, fun r => (known_updateWebhookStatus hu r).trans (hk r), ?_⟩
        exact forall_mem_append.2 ⟨ha, forall_mem_singleton.2 ((hk req).1 (by simp [Known, hu]))⟩
      · exact ⟨hq, hk, ha⟩
    · exact ⟨hq, hk, ha⟩

theorem attempt_head {u : Updater} (b : Bool) (hst : u.statusUpdates = req :: rest) (hk : Known u.rows req) :
    (attempt b u).statusUpdates = if b then rest else req :: rest := by
  obtain ⟨rows', hu⟩ := Option.isSome_iff_exists.1 hk
  cases b <;> simp [attempt, hst, hu]

/-- Requests of existing webhooks at the front of the queue leave it. -/
theorem attempts_pass (hok : ∀ n, ∃ m ≥ n, ok m = true) {front : List StatusUpdateRequest} (hf : ∀ r ∈ front, Known rows r)
    (hst : (attempts ok ⟨rows, queue, []⟩ n).statusUpdates = front ++ rest) :
    ∃ m, (attempts ok ⟨rows, queue, []⟩ m).statusUpdates = rest := by
  induction front generalizing n with
  | nil => exact ⟨n, hst⟩
  | cons r front ih =>
    have hone : ∀ m, (attempts ok ⟨rows, queue, []⟩ m).statusUpdates = r :: (front ++ rest) →
        (attempts ok ⟨rows, queue, []⟩ (m + 1)).statusUpdates = if ok m then front ++ rest else r :: (front ++ rest) :=
      fun m hm => attempt_head (ok m) hm (((attempts_spec ok rows queue m).2.1 r).2 (hf r mem_cons_self))
    obtain ⟨m, hm, hokm⟩ := hok n
    -- up to the next call that gets through, the request is at the head or has been applied
    have hwait : ∀ k, (attempts ok ⟨rows, queue, []⟩ (n + k)).statusUpdates = r :: (front ++ rest) ∨
        ∃ m, (attempts ok ⟨rows, queue, []⟩ m).statusUpdates = front ++ rest := by
      intro k
      induction k with
      | zero => exact .inl hst
      | succ k ihk =>
        rcases ihk with hk | hk
        · have := hone (n + k) hk
          by_cases hb : ok (n + k)
          · exact .inr ⟨n + k + 1, by rw [this, if_pos hb]⟩
          · exact .inl (by rw [← add_assoc, this, if_neg hb])
        · exact .inr hk
    have hnext : ∃ m, (attempts ok ⟨rows, queue, []⟩ m).statusUpdates = front ++ rest := by
      rcases hwait (m - n) with hk | hk
      · rw [Nat.add_sub_cancel' hm] at hk
        exact ⟨m + 1, by rw [hone m hk, if_pos hokm]⟩
      · exact hk
    obtain ⟨m', hm'⟩ := hnext
    exact ih (fun r hr => hf r (mem_cons_of_mem _ hr)) hm'

/-- **Status requests.** When calls get through again and again, a queued request is applied at some time exactly when its webhook
exists and so do those of all requests before it. -/
theorem statusUpdate_applied_iff (rows : Rows) (before after : List StatusUpdateRequest) (req : StatusUpdateRequest)
    (hok : ∀ n, ∃ m ≥ n, ok m = true) :
    (∃ n, before ++ [req] <+: (attempts ok ⟨rows, before ++ [req] ++ after, []⟩ n).applied) ↔
      ∀ r ∈ before ++ [req], Known rows r := by
  constructor
  · rintro ⟨n, hp⟩ r hr
    exact (attempts_spec ok rows _ n).2.2 r (hp.subset hr)
  · intro hk
    obtain ⟨n, hn⟩ := attempts_pass (n := 0) hok hk rfl
    refine ⟨n, ?_⟩
    have hq := (attempts_spec ok rows (before ++ [req] ++ after) n).1
    rw [hn] at hq
    rw [append_cancel_right hq]

end Updates

def oneWebhook : Rows := [⟨str "wh_b", str "t", [], [], [], .enabled, 3, 0⟩]
def degrade (id : String) : StatusUpdateRequest := ⟨str id, str "t", .degraded, 0⟩

def twoWebhooks : Rows := ⟨str "wh_c", str "t", [], [], [], .enabled, 3, 0⟩ :: oneWebhook

/-- Every other call fails, and the request behind the two is one of a webhook that is gone. -/
theorem statusUpdate_applied_alone :
    ∃ n, [degrade "wh_c", degrade "wh_b"] <+: (attempts (· % 2 = 1)
      ⟨twoWebhooks, [degrade "wh_c", degrade "wh_b", degrade "wh_a"], []⟩ n).applied := by
  have hok : ∀ n, ∃ m ≥ n, decide (m % 2 = 1) = true := fun n => ⟨2 * n + 1, by omega, decide_eq_true (by omega)⟩
  refine (statusUpdate_applied_iff twoWebhooks [degrade "wh_c"] [degrade "wh_a"] (degrade "wh_b") hok).2 ?_
  exact forall_mem_cons.2 ⟨rfl, forall_mem_singleton.2 rfl⟩

def blocked : Updater := ⟨oneWebhook, [degrade "wh_a", degrade "wh_b"], []⟩

/-- **Bug**: behind the request of a deleted webhook, that of an existing one is never applied. -/
theorem deleted_webhook_blocks :
    Known oneWebhook (degrade "wh_b") ∧ ∀ n, (attempts (fun _ => true) blocked n).applied = [] := by
  refine ⟨rfl, fun n => ?_⟩
  have hsame : attempts (fun _ => true) blocked n = blocked := by
    induction n with
    | zero => rfl
    | succ n ih =>
      rw [attempts, ih]
      rfl
  rw [hsame]
  rfl

end Sukko.WebhookDelivery.StatusQueue
