import TokenGate.Command
import TokenGate.Proofs.Gate.Spellings

/-!
# The ways to put a token to the command

* `Positional arg`       an argument that is no option;
* `Puts t args stdin`    arguments and standard input that put the text `t` to the command: as an
                         argument or on standard input, bare or as a header;
* `Puts.asked`           all of them ask about a header from which the same is extracted;
* `run_of_puts`          so they have the same result.
-/

namespace TokenGate.Command

open Credential (header ofHeader)
open Text

variable {c : Check} {t arg : String} {args rest : List String} {stdin : List UInt8}

/-! ## arguments -/

/-- no dash in front, which would make an option of a text -/
def Undashed (t : String) : Prop := t.toList.head? ≠ some '-'

/-- an argument that is no option: without a dash in front, or nothing but a dash -/
def Positional (arg : String) : Prop := Undashed arg ∨ arg = "-"

theorem undashed_header (t : String) : Undashed (header t) := by
  unfold Undashed
  rw [Credential.toList_header]
  show some 'B' ≠ some '-'
  decide

theorem Undashed.ne_of_dashed (h : Undashed t) (hs : arg.toList.head? = some '-') : t ≠ arg := by
  rintro rfl
  exact h hs

theorem parseFrom_positional (h : Positional arg) (hc : c.token = none) (rest : List String) :
    parseFrom c (arg :: rest) = parseFrom { c with token := some arg } rest := by
  have hadd : addToken c arg = some { c with token := some arg } := by
    rw [addToken, hc]
    rfl
  rcases h with h | rfl
  · rw [parseFrom, if_neg (h.ne_of_dashed rfl), if_neg (h.ne_of_dashed rfl),
      if_neg (h.ne_of_dashed rfl), if_neg (h.ne_of_dashed rfl)]
    split
    · next heq => exact absurd (congrArg List.head? heq) h
    · next heq => exact absurd (congrArg List.head? heq) h
    · rw [hadd]
  · have hlist : "-".toList = ['-'] := rfl
    rw [parseFrom, if_neg (by decide), if_neg (by decide), if_neg (by decide), if_neg (by decide),
      hlist, hadd]
    rfl

theorem parseFrom_header (hc : c.isHeader = false) (rest : List String) :
    parseFrom c ("--header" :: rest) = parseFrom { c with isHeader := true } rest := by
  rw [parseFrom, if_neg (by decide), if_pos rfl, hc]
  rfl

theorem parse_token (h : Positional arg) : parse [arg] = .check ⟨some arg, false⟩ :=
  parseFrom_positional h rfl []

theorem parse_header_token (h : Positional arg) :
    parse ["--header", arg] = .check ⟨some arg, true⟩ := by
  rw [parse, parseFrom_header rfl, parseFrom_positional h rfl]
  rfl

theorem parse_token_header (h : Positional arg) :
    parse [arg, "--header"] = .check ⟨some arg, true⟩ := by
  rw [parse, parseFrom_positional h rfl, parseFrom_header rfl]
  rfl

theorem parse_header : parse ["--header"] = .check ⟨none, true⟩ := parseFrom_header rfl []

/-! ## forms -/

/-- arguments and standard input that put the text `t` to the command -/
inductive Puts (t : String) : List String → List UInt8 → Prop where
  | argument (stdin : List UInt8) : Puts t [t] stdin
  | input {args : List String} (hargs : args = [] ∨ args = ["-"]) {lead trail : String}
      (hlead : Blank lead.toList) (htrail : Blank trail.toList) :
      Puts t args (bytes (lead ++ t ++ trail))
  | headerArgument {args : List String}
      (hargs : args = ["--header", "Bearer " ++ t] ∨ args = ["Bearer " ++ t, "--header"])
      (stdin : List UInt8) : Puts t args stdin
  | headerInput {args : List String}
      (hargs : args = ["--header"] ∨ args = ["--header", "-"] ∨ args = ["-", "--header"])
      {lead trail : String} (hlead : Blank lead.toList) (htrail : Blank trail.toList) :
      Puts t args (bytes (lead ++ ("Bearer " ++ t) ++ trail))

theorem input?_argument (hne : arg ≠ "-") (isHeader : Bool) (stdin : List UInt8) :
    input? ⟨some arg, isHeader⟩ stdin = some arg := by
  unfold input?
  rw [Option.filter_some, if_pos (by simpa using hne)]

theorem input?_stdin (hc : c.token = none ∨ c.token = some "-") (text : String) :
    input? c (bytes text) = some (trimmed text) := by
  unfold input?
  rw [ofBytes?_bytes]
  rcases hc with hc | hc
  · rw [hc]
    rfl
  · rw [hc]
    rfl

/-- what is put to the command asks about a header from which the same is extracted -/
theorem Puts.asked (h : Puts t args stdin) (ht : Undashed t) :
    ∃ c input, parse args = .check c ∧ input? c stdin = some input
      ∧ ofHeader (some (headerOf c input)) = ofHeader (some (header t)) := by
  have hdash : Positional "-" := .inr rfl
  cases h with
  | argument =>
    exact ⟨_, t, parse_token (.inl ht), input?_argument (ht.ne_of_dashed rfl) _ _, rfl⟩
  | @input _ hargs lead trail hlead htrail =>
    have hc : ∃ c, parse args = .check c ∧ c.isHeader = false
        ∧ (c.token = none ∨ c.token = some "-") := by
      rcases hargs with rfl | rfl
      · exact ⟨_, rfl, rfl, .inl rfl⟩
      · exact ⟨_, parse_token hdash, rfl, .inr rfl⟩
    obtain ⟨c, hparse, hheader, htoken⟩ := hc
    refine ⟨c, _, hparse, input?_stdin htoken _, ?_⟩
    rw [headerOf, hheader]
    apply Credential.ofHeader_header_congr
    rw [trimmed_trimmed, trimmed_around hlead htrail]
  | headerArgument hargs =>
    have hpositional : Positional (header t) := .inl (undashed_header t)
    have hne : header t ≠ "-" := (undashed_header t).ne_of_dashed rfl
    rw [← Credential.header_eq] at hargs
    refine ⟨⟨some (header t), true⟩, header t, ?_, input?_argument hne _ _, rfl⟩
    rcases hargs with rfl | rfl
    · exact parse_header_token hpositional
    · exact parse_token_header hpositional
  | @headerInput _ hargs lead trail hlead htrail =>
    have hc : ∃ c, parse args = .check c ∧ c.isHeader = true
        ∧ (c.token = none ∨ c.token = some "-") := by
      rcases hargs with rfl | rfl | rfl
      · exact ⟨_, parse_header, rfl, .inl rfl⟩
      · exact ⟨_, parse_header_token hdash, rfl, .inr rfl⟩
      · exact ⟨_, parse_token_header hdash, rfl, .inr rfl⟩
    obtain ⟨c, hparse, hheader, htoken⟩ := hc
    refine ⟨c, _, hparse, input?_stdin htoken _, ?_⟩
    rw [headerOf, hheader, ← Credential.header_eq]
    show ofHeader (some (trimmed _)) = _
    rw [Credential.ofHeader_trimmed, Credential.ofHeader_around hlead htrail]

theorem check_congr {c' : Check} {stdin' : List UInt8} {input input' : String}
    (hinput : input? c stdin = some input) (hinput' : input? c' stdin' = some input')
    (h : ofHeader (some (headerOf c input)) = ofHeader (some (headerOf c' input')))
    (env : Environment) (now : Int) : check c env stdin now = check c' env stdin' now := by
  unfold check
  rcases gateOf env with (_ | _) | g
  · rfl
  · rfl
  · simp only [hinput, hinput']
    rw [g.authenticate_congr noRealm g.emptyMemo h now]

theorem run_of_puts (h : Puts t args stdin) (ht : Undashed t) (env : Environment) (now : Int) :
    run args env stdin now = check ⟨some t, false⟩ env [] now := by
  obtain ⟨c, input, hparse, hinput, hasked⟩ := h.asked ht
  have hplain : input? ⟨some t, false⟩ [] = some t := input?_argument (ht.ne_of_dashed rfl) _ _
  rw [run, hparse]
  exact check_congr hinput hplain hasked env now

end TokenGate.Command
