import TokenGate.Proofs.Command.Forms
import TokenGate.Proofs.Gate.Obstacles
import TokenGate.Proofs.Gate.Soundness

/-!
# What the command answers

* `Gate.authenticate_unasked`   a gate that does not ask for an identity store decides as with any
                                other;
* `Command.built`          the gate of settings, without an identity store;
* `Command.Faulty`         the environment gives no settings, or faulty ones;
* `Command.Answers`        the result on the text of a token: by what the environment gives, and by
                           what the gate decides on the plain header of the token;
* `answers_iff`            the command gives the result that it answers;
* `exit_eq_two_iff`, `exit_eq_zero_iff`   which exit codes stand for what;
* `forms_agree`            in whatever form the text is put to it.
-/

namespace TokenGate

/-! ## gates that ask nobody -/

namespace Gate

variable {g : Gate}

theorem confirm_unasked (h : g.realmRequired = false) (realm : Realm) (subject : String)
    (roles : Roles) : g.confirm realm subject roles = .done roles := by
  rw [confirm, if_neg (by simp [h])]

theorem examine_unasked (h : g.realmRequired = false) (realm realm' : Realm) :
    g.examine realm = g.examine realm' := by
  funext raw now
  simp only [examine, confirm_unasked h]

theorem authenticate_unasked (h : g.realmRequired = false) (realm realm' : Realm) (m : Memo)
    (header : Option String) (now : Int) :
    g.authenticate realm m header now = g.authenticate realm' m header now := by
  unfold authenticate decide decideToken decideFresh
  rw [examine_unasked h realm realm']

end Gate

namespace Command

open Credential (header)
open Text

variable {env : Environment} {s : Settings} {g : Gate} {now : Int} {t : String} {r : Result}

/-! ## answers -/

/-- what comes of building a gate that does without an identity store -/
def built (s : Settings) : Except Gate.Fault Gate :=
  Gate.build { s with realmRequired := false } false none

/-- the environment gives no settings, or settings that something is wrong with -/
def Faulty (env : Environment) : Prop :=
  (∃ f, Settings.ofVariables env = .error f)
    ∨ ∃ s f, Settings.ofVariables env = .ok s ∧ built s = .error (.settings f)

/-- the result on the text `t` of a token -/
inductive Answers (env : Environment) (now : Int) (t : String) : Result → Prop where
  | faulty (h : Faulty env) : Answers env now t ⟨2, ""⟩
  | noRoom {s : Settings} (hs : Settings.ofVariables env = .ok s) (hb : built s = .error .noRoom) :
      Answers env now t ⟨101, ""⟩
  /-- the roles are listed in ascending order, each once -/
  | accepted {s : Settings} {g : Gate} {i : Identity} {names : List String}
      (hs : Settings.ofVariables env = .ok s) (hb : built s = .ok g)
      (hd : ∀ realm, (g.authenticate realm g.emptyMemo (some ("Bearer " ++ t)) now).decision
        = .accepted i)
      (hsorted : names.Pairwise (· < ·)) (hnames : ∀ name, name ∈ names ↔ name ∈ i.roles) :
      Answers env now t
        ⟨0, "subject: " ++ i.subject ++ "\nroles: " ++ String.intercalate "," names ++ "\n"⟩
  | rejected {s : Settings} {g : Gate} {failure : Rejection}
      (hs : Settings.ofVariables env = .ok s) (hb : built s = .ok g)
      (hd : ∀ realm, (g.authenticate realm g.emptyMemo (some ("Bearer " ++ t)) now).decision
        = .rejected failure) :
      Answers env now t
        ⟨1, "WWW-Authenticate: " ++ Challenge.value s.realmName failure ++ "\n"⟩

theorem gateOf_of_loaded (hs : Settings.ofVariables env = .ok s) : gateOf env = built s := by
  unfold gateOf
  rw [hs]
  rfl

theorem faulty_iff : Faulty env ↔ ∃ f, gateOf env = .error (.settings f) := by
  unfold Faulty
  cases hs : Settings.ofVariables env with
  | error f =>
    refine iff_of_true (.inl ⟨f, rfl⟩) ⟨f, ?_⟩
    unfold gateOf
    rw [hs]
    rfl
  | ok s => simp [gateOf_of_loaded hs]

theorem exists_loaded {x : Except Gate.Fault Gate} (h : gateOf env = x) (hx : ¬ Faulty env) :
    ∃ s, Settings.ofVariables env = .ok s ∧ built s = x := by
  cases hs : Settings.ofVariables env with
  | error f => exact absurd (.inl ⟨f, hs⟩) hx
  | ok s => exact ⟨s, rfl, (gateOf_of_loaded hs).symm.trans h⟩

theorem unasked_of_built (h : built s = .ok g) : g.realmRequired = false :=
  (Gate.follows_of_build h).realmRequired

theorem realmName_of_built (h : built s = .ok g) : g.realmName = s.realmName := by
  unfold built at h
  rw [Gate.realmName_of_build h]

theorem check_of_built (ht : Undashed t) (hs : Settings.ofVariables env = .ok s)
    (hb : built s = .ok g) (realm : Realm) :
    check ⟨some t, false⟩ env [] now = report s.realmName
      (g.authenticate realm g.emptyMemo (some ("Bearer " ++ t)) now).decision := by
  have hinput : input? ⟨some t, false⟩ [] = some t := input?_argument (ht.ne_of_dashed rfl) _ _
  unfold check
  rw [gateOf_of_loaded hs, hb]
  dsimp only
  rw [hinput, Gate.authenticate_unasked (unasked_of_built hb) realm noRealm,
    ← Credential.header_eq, ← realmName_of_built hb]
  rfl

theorem Answers.check_eq (h : Answers env now t r) (ht : Undashed t) :
    check ⟨some t, false⟩ env [] now = r := by
  cases h with
  | faulty h =>
    obtain ⟨f, hf⟩ := faulty_iff.mp h
    unfold check
    rw [hf]
    rfl
  | noRoom hs hb =>
    unfold check
    rw [gateOf_of_loaded hs, hb]
    rfl
  | @accepted _ _ i names hs hb hd hsorted hnames =>
    have hroles : i.roles = ⟨names, hsorted⟩ := Roles.ext fun name => (hnames name).symm
    rw [check_of_built ht hs hb noRealm, hd noRealm, report, hroles]
  | rejected hs hb hd => rw [check_of_built ht hs hb noRealm, hd noRealm, report]

theorem answers_check (ht : Undashed t) :
    Answers env now t (check ⟨some t, false⟩ env [] now) := by
  by_cases hx : Faulty env
  · have h : Answers env now t ⟨2, ""⟩ := .faulty hx
    rw [h.check_eq ht]
    exact h
  obtain ⟨s, hs, hb⟩ := exists_loaded rfl hx
  cases hg : built s with
  | error fault =>
    cases fault with
    | settings f => exact absurd (.inr ⟨s, f, hs, hg⟩) hx
    | noRoom =>
      have h : Answers env now t ⟨101, ""⟩ := .noRoom hs hg
      rw [h.check_eq ht]
      exact h
  | ok g =>
    have hsame : ∀ realm realm' : Realm,
        (g.authenticate realm g.emptyMemo (some ("Bearer " ++ t)) now).decision
          = (g.authenticate realm' g.emptyMemo (some ("Bearer " ++ t)) now).decision :=
      fun realm realm' => by rw [Gate.authenticate_unasked (unasked_of_built hg) realm realm']
    rw [check_of_built ht hs hg noRealm]
    cases hd : (g.authenticate noRealm g.emptyMemo (some ("Bearer " ++ t)) now).decision with
    | accepted i =>
      exact .accepted hs hg (fun realm => (hsame realm noRealm).trans hd) i.roles.sorted
        fun _ => Iff.rfl
    | rejected failure => exact .rejected hs hg fun realm => (hsame realm noRealm).trans hd

theorem answers_iff (ht : Undashed t) :
    check ⟨some t, false⟩ env [] now = r ↔ Answers env now t r := by
  constructor
  · rintro rfl
    exact answers_check ht
  · exact fun h => h.check_eq ht

theorem exit_eq_two_iff (ht : Undashed t) :
    (check ⟨some t, false⟩ env [] now).exit = 2 ↔ Faulty env := by
  constructor
  · intro h
    have ha : Answers env now t (check ⟨some t, false⟩ env [] now) := answers_check ht
    generalize check ⟨some t, false⟩ env [] now = r at h ha
    cases ha with
    | faulty hx => exact hx
    | _ => cases h
  · intro hx
    rw [(Answers.faulty hx).check_eq ht]

theorem exit_eq_zero_iff (ht : Undashed t) (hs : Settings.ofVariables env = .ok s)
    (hb : built s = .ok g) (realm : Realm) :
    (check ⟨some t, false⟩ env [] now).exit = 0 ↔
      (g.authenticate realm g.emptyMemo (some ("Bearer " ++ t)) now).decision.isAccepted
        = true := by
  rw [check_of_built ht hs hb realm]
  cases (g.authenticate realm g.emptyMemo (some ("Bearer " ++ t)) now).decision with
  | accepted i => exact iff_of_true rfl rfl
  | rejected failure => exact iff_of_false nofun nofun

/-- The command gives one and the same result in whatever form a text is put to it, and that is
what it answers on the text. Its exit code is 2 if and only if the environment is at fault, and
where there is a gate it is 0 if and only if the gate accepts the plain header of the text. All
variables are texts (`Environment`), and whether there is room for the memo is a matter of its size
alone (`Memo.hasRoom`). -/
theorem forms_agree (env : Environment) (now : Int) {t : String} (ht : Undashed t) :
    (∀ args stdin args' stdin', Puts t args stdin → Puts t args' stdin' →
      run args env stdin now = run args' env stdin' now)
    ∧ ∀ args stdin, Puts t args stdin →
      (∀ r, run args env stdin now = r ↔ Answers env now t r)
      ∧ ((run args env stdin now).exit = 2 ↔ Faulty env)
      ∧ ∀ s g, Settings.ofVariables env = .ok s → built s = .ok g → ∀ realm,
        ((run args env stdin now).exit = 0 ↔
          (g.authenticate realm g.emptyMemo (some ("Bearer " ++ t)) now).decision.isAccepted
            = true) := by
  refine ⟨fun args stdin args' stdin' h h' => ?_, fun args stdin h => ?_⟩
  · rw [run_of_puts h ht env now, run_of_puts h' ht env now]
  · rw [run_of_puts h ht env now]
    exact ⟨fun r => answers_iff ht, exit_eq_two_iff ht, fun s g => exit_eq_zero_iff ht⟩

/-- an environment with nothing but the sample key -/
def keyed : Environment := fun name =>
  if name = Variable.secretKey.name then some "c2VjcmV0" else none

/-- the gate of that environment -/
def unasking : Gate := { Gate.sample with hasRealm := false, realmRequired := false }

/-- a token that is accepted, as a header on standard input -/
theorem forms_agree_of_keyed :
    Undashed Gate.sampleToken
      ∧ Puts Gate.sampleToken ["--header"] (bytes ("\t" ++ ("Bearer " ++ Gate.sampleToken) ++ "\n"))
      ∧ run ["--header"] keyed (bytes ("\t" ++ ("Bearer " ++ Gate.sampleToken) ++ "\n")) 0
        = ⟨0, "subject: user1\nroles: \n"⟩
      ∧ Answers keyed 0 Gate.sampleToken ⟨0, "subject: user1\nroles: \n"⟩
      ∧ ¬ Faulty keyed := by
  have ht : Undashed Gate.sampleToken := by
    unfold Undashed
    decide +kernel
  have hputs : Puts Gate.sampleToken ["--header"]
      (bytes ("\t" ++ ("Bearer " ++ Gate.sampleToken) ++ "\n")) := by
    refine .headerInput (.inl rfl) (fun c hc => ?_) fun c hc => ?_
    · rw [List.mem_singleton.mp hc]
      rfl
    · rw [List.mem_singleton.mp hc]
      rfl
  obtain ⟨hsame, hforms⟩ := forms_agree keyed 0 ht
  obtain ⟨hanswers, hfaulty, _⟩ := hforms _ _ hputs
  have hs : Settings.ofVariables keyed = .ok Settings.sample := by decide +kernel
  have hb : built Settings.sample = .ok unasking := rfl
  have hd : (unasking.authenticate noRealm unasking.emptyMemo
      (some (header Gate.sampleToken)) 0).decision = .accepted ⟨"user1", .empty⟩ := by
    refine (unasking.decision_of_empty noRealm rfl Gate.ofHeader_sampleHeader 0).trans ?_
    rw [Gate.validate_of_sampleSecret rfl]
    decide +kernel
  have hplain : run [Gate.sampleToken] keyed [] 0 = ⟨0, "subject: user1\nroles: \n"⟩ := by
    rw [run_of_puts (.argument []) ht, check_of_built ht hs hb noRealm, ← Credential.header_eq, hd]
    rfl
  have hrun := (hsame _ _ _ _ hputs (.argument [])).trans hplain
  refine ⟨ht, hputs, hrun, (hanswers _).mp hrun, fun hx => ?_⟩
  have hexit := hfaulty.mpr hx
  rw [hrun] at hexit
  cases hexit

/-- the same with the largest size of the memo that can be asked for -/
def oversized : Environment := fun name =>
  if name = Variable.memoSize.name then some "18446744073709551615" else keyed name

/-- there are results besides that of a faulty environment, an acceptance and a rejection -/
theorem run_oversized :
    run ["e30.e30.e30"] oversized [] 0 = ⟨101, ""⟩
    ∧ ¬ Faulty oversized
    ∧ ¬ ∀ (env : Environment) (now : Int) (t : String) (args : List String) (stdin : List UInt8),
      Undashed t → Puts t args stdin →
        (run args env stdin now).exit = 2 ∨ (run args env stdin now).exit = 0
          ∨ (run args env stdin now).exit = 1 := by
  have ht : Undashed "e30.e30.e30" := by
    unfold Undashed
    decide
  have hputs : Puts "e30.e30.e30" ["e30.e30.e30"] [] := .argument []
  have hrun : run ["e30.e30.e30"] oversized [] 0 = ⟨101, ""⟩ := by decide +kernel
  refine ⟨hrun, fun hx => ?_, fun h => ?_⟩
  · rw [← exit_eq_two_iff ht, ← run_of_puts hputs ht, hrun] at hx
    cases hx
  · have hlisted := h oversized 0 _ _ _ ht hputs
    rw [hrun] at hlisted
    rcases hlisted with h | h | h <;> cases h

end Command

end TokenGate
