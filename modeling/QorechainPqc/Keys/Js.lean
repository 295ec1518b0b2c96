import QorechainPqc.Keys.Standard
import QorechainPqc.Lib.Raise
import QorechainPqc.Verify.Js

/-!
# Keys and signatures in the JavaScript binding

The methods of `wrapSig` and `wrapKem` in `index.js` that throw: `keygen`, `sign`, `encapsulate` and `decapsulate`. Each
checks its arguments and hands them to `@noble/post-quantum`, whose answer it returns.

`checked_before_asked` says what the library is asked in every run of every call, and what is thrown when an argument is
refused. `sign_eq` and the lemmas around it say what the methods return when the library follows the standards.
-/

namespace QorechainPqc.Js

open Failing Program MonadExcept

/-! ## Values and requests -/

/-- An argument of a method that throws; `described` is what `describe` makes of a value that is no `Uint8Array`. -/
structure Given where
  arg : Arg
  described : Except Stop String

/-- A `Uint8Array`. -/
def Given.bytes (b : Bytes) : Given := ⟨.bytes b, .error .typeError⟩

/-- The options of `sign`: a value that is falsy, or another one with what reading `hedged` gives. -/
inductive Opts
  | falsy
  | truthy (hedged : Except Stop Value)

/-- The default, `{}`. -/
def Opts.default : Opts := .truthy (.ok .undefined)

/-- `opts && opts.hedged === true`. -/
def Opts.hedged : Opts → Except Stop Bool
  | .falsy => .ok false
  | .truthy hedged => do return (← hedged) == .boolean true

/-- What is asked of `@noble/post-quantum`. -/
inductive Req
  | keygen (l : MlDsa.Level) (seed : Option Arg)
  /-- `sign(message, secretKey)`, or with `{ extraEntropy: false }`. -/
  | sign (l : MlDsa.Level) (message secretKey : Arg) (hedged : Bool)
  | kemKeygen (l : MlKem.Level) (seed : Option Arg)
  | encapsulate (l : MlKem.Level) (publicKey : Arg)
  | decapsulate (l : MlKem.Level) (cipherText secretKey : Arg)

/-- The results: key pairs, ciphertext and shared secret, byte strings. -/
abbrev Res : Req → Type
  | .sign _ _ _ _ => Bytes
  | .decapsulate _ _ _ => Bytes
  | _ => Bytes × Bytes

/-- A method: what is asked for may throw, and so may the method. -/
abbrev Jsm := Raising Stop Req Res

/-- `ask` with the type of results of the request. -/
abbrev call (q : Req) : Jsm (Res q) := Raising.ask q

/-! ## The methods -/

/-- `requireBytes`. -/
def requireBytes (fn arg : String) (v : Given) (len : Option Nat) : Except Stop Unit := do
  if !(← isBytes v.arg) then
    let want := match len with
      | none => ""
      | some n => " of " ++ toString n ++ " bytes"
    let got ← v.described
    throw (.error (fn ++ ": " ++ arg ++ " must be a Uint8Array" ++ want ++ ", got " ++ got) none)
  match len with
  | none => return ()
  | some n =>
    let length ← v.arg.length
    if length != .number (.finite n) then
      throw (.error (fn ++ ": " ++ arg ++ " must be exactly " ++ toString n ++ " bytes, got ") (some length))

/-- The lengths of a level, in `KEM_LENGTHS`. -/
structure KemLengths where
  seed : Nat
  publicKey : Nat
  secretKey : Nat
  cipherText : Nat

/-- `KEM_LENGTHS`. -/
def kemLengths : MlKem.Level → KemLengths
  | .l512 => ⟨64, 800, 1632, 768⟩
  | .l768 => ⟨64, 1184, 2400, 1088⟩
  | .l1024 => ⟨64, 1568, 3168, 1568⟩

/-- `keygen` of `wrapSig`. -/
def keygen (l : MlDsa.Level) (seed : Option Given) : Jsm (Bytes × Bytes) := do
  match seed with
  | none => call (.keygen l none)
  | some seed =>
    ofExcept (requireBytes (l.name ++ ".keygen") "seed" seed (some (sigLengths l).seed))
    call (.keygen l (some seed.arg))

/-- `sign` of `wrapSig`. -/
def sign (l : MlDsa.Level) (secretKey message : Given) (opts : Opts) : Jsm Bytes := do
  ofExcept (requireBytes (l.name ++ ".sign") "secretKey" secretKey (some (sigLengths l).secretKey))
  ofExcept (requireBytes (l.name ++ ".sign") "message" message none)
  let hedged ← ofExcept opts.hedged
  call (.sign l message.arg secretKey.arg hedged)

/-- `keygen` of `wrapKem`. -/
def kemKeygen (l : MlKem.Level) (seed : Option Given) : Jsm (Bytes × Bytes) := do
  match seed with
  | none => call (.kemKeygen l none)
  | some seed =>
    ofExcept (requireBytes (l.name ++ ".keygen") "seed" seed (some (kemLengths l).seed))
    call (.kemKeygen l (some seed.arg))

/-- `encapsulate`. -/
def encapsulate (l : MlKem.Level) (publicKey : Given) : Jsm (Bytes × Bytes) := do
  ofExcept (requireBytes (l.name ++ ".encapsulate") "publicKey" publicKey (some (kemLengths l).publicKey))
  call (.encapsulate l publicKey.arg)

/-- `decapsulate`. -/
def decapsulate (l : MlKem.Level) (secretKey cipherText : Given) : Jsm Bytes := do
  ofExcept (requireBytes (l.name ++ ".decapsulate") "secretKey" secretKey (some (kemLengths l).secretKey))
  ofExcept (requireBytes (l.name ++ ".decapsulate") "cipherText" cipherText (some (kemLengths l).cipherText))
  call (.decapsulate l cipherText.arg secretKey.arg)

/-- `mldsa`, the default. -/
def mldsa : MlDsa.Level := .l87

/-- `mlkem`, the default. -/
def mlkem : MlKem.Level := .l1024

/-! ## What the checks check -/

/-- What a check demands: the method and the argument that it names, the value, and the length if there is one. -/
structure Demand where
  fn : String
  arg : String
  value : Given
  len : Option Nat

/-- The check. -/
def Demand.check (d : Demand) : Except Stop Unit := requireBytes d.fn d.arg d.value d.len

/-- The value is a `Uint8Array`, of the length that is demanded. -/
def Demand.Met (d : Demand) : Prop := ∃ b, d.value.arg = .bytes b ∧ ∀ n ∈ d.len, b.length = n

/-- An argument without traps: a `Uint8Array`, or a value that is tested, and described, without a throw. -/
def Given.Plain (v : Given) : Prop :=
  (∃ b, v.arg = .bytes b) ∨ isBytes v.arg = .ok false ∧ ∃ text, v.described = .ok text

/-- The refusal of an argument: an `Error` whose text starts with the method and the argument. -/
def Demand.Refused (d : Demand) (e : Stop) : Prop :=
  ∃ text shown, e = .error (d.fn ++ ": " ++ d.arg ++ " must be " ++ text) shown

theorem append_split {a b c : String} (h : c = a ++ b) (x : String) : c ++ x = a ++ (b ++ x) := by
  rw [h, String.append_assoc]

theorem Demand.check_of_met {d : Demand} (h : d.Met) : d.check = .ok () := by
  obtain ⟨b, hb, hlen⟩ := h
  unfold check requireBytes
  rw [hb]
  cases hn : d.len with
  | none => rfl
  | some n =>
    have hl : b.length = n := hlen n hn
    simp only [isBytes, Arg.length, ok_bind, hl]
    simp

theorem Demand.check_of_not_met {d : Demand} (hp : d.value.Plain) (h : ¬d.Met) :
    ∃ e, d.check = .error e ∧ d.Refused e := by
  rcases hp with ⟨b, hb⟩ | ⟨hf, text, ht⟩
  · cases hn : d.len with
    | none => exact absurd ⟨b, hb, fun n hm => by rw [hn] at hm; cases hm⟩ h
    | some n =>
      have hl : b.length ≠ n := fun hl => h ⟨b, hb, fun m hm => by rw [hn] at hm; cases hm; exact hl⟩
      have hcast : (b.length : Rat) ≠ (n : Rat) := fun hc => hl (Nat.cast_injective hc)
      refine ⟨_, ?_, "exactly " ++ toString n ++ " bytes, got ", some (.number (.finite b.length)), rfl⟩
      unfold check requireBytes
      rw [hb, hn]
      simp [isBytes, Arg.length, hcast, String.append_assoc]
      exact append_split (by decide) _
  · cases hn : d.len with
    | none =>
      refine ⟨_, ?_, "a Uint8Array, got " ++ text, none, rfl⟩
      unfold check requireBytes
      rw [hf, hn]
      simp [ht, String.append_assoc]
      exact append_split (by decide) _
    | some n =>
      refine ⟨_, ?_, "a Uint8Array" ++ (" of " ++ toString n ++ " bytes, got " ++ text), none, rfl⟩
      unfold check requireBytes
      rw [hf, hn]
      simp [ht, String.append_assoc]
      exact append_split (by decide) _

/-! ## What the library is asked -/

/-- The checks in front of the rest of a method. -/
def guarded {α : Type} (ds : List Demand) (p : Jsm α) : Jsm α := ds.foldr (fun d p => do ofExcept d.check; p) p

theorem guarded_of_met {α : Type} {ds : List Demand} {p : Jsm α} (h : ∀ d ∈ ds, d.Met) : guarded ds p = p := by
  induction ds with
  | nil => rfl
  | cons d ds ih =>
    have hd : d.check = .ok () := Demand.check_of_met (h d List.mem_cons_self)
    change (ofExcept d.check >>= fun _ => guarded ds p) = p
    rw [hd]
    exact ih fun d' hd' => h d' (List.mem_cons_of_mem _ hd')

/-- The first demand that is not met decides. -/
theorem guarded_of_first {α : Type} {front back : List Demand} {d : Demand} {e : Stop} {p : Jsm α}
    (h : ∀ d' ∈ front, d'.Met) (he : d.check = .error e) : guarded (front ++ d :: back) p = throw e := by
  have hfront : guarded (front ++ d :: back) p = guarded front (guarded (d :: back) p) := List.foldr_append ..
  rw [hfront, guarded_of_met h]
  change (ofExcept d.check >>= fun _ => guarded back p) = throw e
  rw [he]
  rfl

/-- If a demand is not met, the method throws. -/
theorem guarded_of_not_met {α : Type} {ds : List Demand} {p : Jsm α} (hplain : ∀ d ∈ ds, d.value.Plain)
    (h : ∃ d ∈ ds, ¬d.Met) : ∃ e, guarded ds p = throw e := by
  induction ds with
  | nil =>
    obtain ⟨d, hd, -⟩ := h
    cases hd
  | cons d ds ih =>
    by_cases hmet : d.Met
    · have htail : ∃ d' ∈ ds, ¬d'.Met := by
        obtain ⟨d', hd', hnot⟩ := h
        rcases List.mem_cons.mp hd' with rfl | hd'
        · exact absurd hmet hnot
        · exact ⟨d', hd', hnot⟩
      obtain ⟨e, he⟩ := ih (fun d' hd' => hplain d' (List.mem_cons_of_mem _ hd')) htail
      refine ⟨e, ?_⟩
      change (ofExcept d.check >>= fun _ => guarded ds p) = throw e
      rw [Demand.check_of_met hmet]
      exact he
    · obtain ⟨e, he, -⟩ := Demand.check_of_not_met (hplain d List.mem_cons_self) hmet
      have hnil : ∀ d' ∈ ([] : List Demand), d'.Met := fun _ hd' => absurd hd' List.not_mem_nil
      have hfirst : guarded ([] ++ d :: ds) p = throw e := guarded_of_first hnil he
      exact ⟨e, hfirst⟩

/-- The calls of the methods that throw. -/
inductive Method
  | keygen (l : MlDsa.Level) (seed : Option Given)
  | sign (l : MlDsa.Level) (secretKey message : Given) (opts : Opts)
  | kemKeygen (l : MlKem.Level) (seed : Option Given)
  | encapsulate (l : MlKem.Level) (publicKey : Given)
  | decapsulate (l : MlKem.Level) (secretKey cipherText : Given)

namespace Method

/-- The type of what is returned. -/
abbrev Result : Method → Type
  | sign _ _ _ _ => Bytes
  | decapsulate _ _ _ => Bytes
  | _ => Bytes × Bytes

def call : ∀ m : Method, Jsm m.Result
  | keygen l seed => Js.keygen l seed
  | sign l secretKey message opts => Js.sign l secretKey message opts
  | kemKeygen l seed => Js.kemKeygen l seed
  | encapsulate l publicKey => Js.encapsulate l publicKey
  | decapsulate l secretKey cipherText => Js.decapsulate l secretKey cipherText

/-- What the method demands of its arguments, in order. -/
def demands : Method → List Demand
  | keygen l seed => seed.toList.map fun v => ⟨l.name ++ ".keygen", "seed", v, some (sigLengths l).seed⟩
  | sign l secretKey message _ => [⟨l.name ++ ".sign", "secretKey", secretKey, some (sigLengths l).secretKey⟩,
      ⟨l.name ++ ".sign", "message", message, none⟩]
  | kemKeygen l seed => seed.toList.map fun v => ⟨l.name ++ ".keygen", "seed", v, some (kemLengths l).seed⟩
  | encapsulate l publicKey => [⟨l.name ++ ".encapsulate", "publicKey", publicKey, some (kemLengths l).publicKey⟩]
  | decapsulate l secretKey cipherText =>
    [⟨l.name ++ ".decapsulate", "secretKey", secretKey, some (kemLengths l).secretKey⟩,
      ⟨l.name ++ ".decapsulate", "cipherText", cipherText, some (kemLengths l).cipherText⟩]

/-- Whether a hedged signature is asked for; reading it may throw. -/
def hedged : Method → Except Stop Bool
  | sign _ _ _ opts => opts.hedged
  | _ => .ok false

/-- The request behind the checks. -/
def request (h : Bool) : Method → Req
  | keygen l seed => .keygen l (seed.map Given.arg)
  | sign l secretKey message _ => .sign l message.arg secretKey.arg h
  | kemKeygen l seed => .kemKeygen l (seed.map Given.arg)
  | encapsulate l publicKey => .encapsulate l publicKey.arg
  | decapsulate l secretKey cipherText => .decapsulate l cipherText.arg secretKey.arg

/-- The rest of the method. -/
def body : ∀ m : Method, Jsm m.Result
  | keygen l seed => Js.call (.keygen l (seed.map Given.arg))
  | sign l secretKey message opts => do
    let h ← ofExcept opts.hedged
    Js.call (.sign l message.arg secretKey.arg h)
  | kemKeygen l seed => Js.call (.kemKeygen l (seed.map Given.arg))
  | encapsulate l publicKey => Js.call (.encapsulate l publicKey.arg)
  | decapsulate l secretKey cipherText => Js.call (.decapsulate l cipherText.arg secretKey.arg)

/-- **Every method** is its checks and the request behind them. -/
theorem call_eq (m : Method) : m.call = guarded m.demands m.body := by
  cases m with
  | keygen l seed => cases seed <;> rfl
  | kemKeygen l seed => cases seed <;> rfl
  | _ => rfl

end Method

/-- A request hands over byte arrays of the sizes of the level. -/
def Req.Exact : Req → Prop
  | .keygen _ seed => ∀ v ∈ seed, ∃ b, v = .bytes b ∧ b.length = 32
  | .sign l message secretKey _ =>
    (∃ b, message = .bytes b) ∧ ∃ b, secretKey = .bytes b ∧ b.length = l.sizes.secretKey
  | .kemKeygen _ seed => ∀ v ∈ seed, ∃ b, v = .bytes b ∧ b.length = 64
  | .encapsulate l publicKey => ∃ b, publicKey = .bytes b ∧ b.length = l.sizes.publicKey
  | .decapsulate l cipherText secretKey => (∃ b, cipherText = .bytes b ∧ b.length = l.sizes.ciphertext) ∧
      ∃ b, secretKey = .bytes b ∧ b.length = l.sizes.secretKey

theorem sigLengths_keys (l : MlDsa.Level) :
    (sigLengths l).seed = 32 ∧ (sigLengths l).secretKey = l.sizes.secretKey := by
  cases l <;> exact ⟨rfl, rfl⟩

theorem kemLengths_eq (l : MlKem.Level) : kemLengths l =
    ⟨64, l.sizes.publicKey, l.sizes.secretKey, l.sizes.ciphertext⟩ := by
  cases l <;> rfl

theorem Demand.Met.sized {fn arg : String} {v : Given} {n k : Nat} (h : (Demand.mk fn arg v (some n)).Met)
    (hk : n = k) : ∃ b, v.arg = .bytes b ∧ b.length = k := by
  obtain ⟨b, hb, hlen⟩ := h
  exact ⟨b, hb, (hlen n rfl).trans hk⟩

/-- Where the demands are met, the request is exact. -/
theorem Method.exact_request {m : Method} (h : ∀ d ∈ m.demands, d.Met) (hedged : Bool) : (m.request hedged).Exact := by
  cases m with
  | keygen l seed =>
    cases seed with
    | none => exact fun v hv => absurd hv (Option.not_mem_none v)
    | some seed =>
      rintro v hv
      obtain rfl := Option.some.inj hv
      exact (h _ (List.mem_singleton.mpr rfl)).sized (sigLengths_keys l).1
  | sign l secretKey message opts =>
    have hsk := h _ List.mem_cons_self
    obtain ⟨b, hb, -⟩ := h _ (List.mem_cons_of_mem _ List.mem_cons_self)
    exact ⟨⟨b, hb⟩, hsk.sized (sigLengths_keys l).2⟩
  | kemKeygen l seed =>
    cases seed with
    | none => exact fun v hv => absurd hv (Option.not_mem_none v)
    | some seed =>
      rintro v hv
      obtain rfl := Option.some.inj hv
      exact (h _ (List.mem_singleton.mpr rfl)).sized (congrArg KemLengths.seed (kemLengths_eq l))
  | encapsulate l publicKey =>
    exact (h _ (List.mem_singleton.mpr rfl)).sized (congrArg KemLengths.publicKey (kemLengths_eq l))
  | decapsulate l secretKey cipherText =>
    have hsk := h _ List.mem_cons_self
    have hct := h _ (List.mem_cons_of_mem _ List.mem_cons_self)
    exact ⟨hct.sized (congrArg KemLengths.cipherText (kemLengths_eq l)),
      hsk.sized (congrArg KemLengths.secretKey (kemLengths_eq l))⟩

variable {ok : ∀ q, Refusable Stop Res q → Prop} {tr : List (Event Req (Refusable Stop Res))}

theorem run_throw {α : Type} {e : Stop} {r : Except Stop α} (h : Run ok (throw e : Jsm α).run tr r) :
    tr = [] ∧ r = .error e := by
  cases h
  exact ⟨rfl, rfl⟩

theorem run_call {q : Req} {r : Except Stop (Res q)} (h : Run ok (call q).run tr r) : tr = [⟨q, r⟩] := by
  cases h with
  | ask ha hr =>
    cases hr
    rfl

/-- The rest of a method makes its request, and no other. -/
theorem Method.run_body {m : Method} {r : Except Stop m.Result} (h : Run ok m.body.run tr r) {hedged : Bool}
    (hh : m.hedged = .ok hedged) : ∃ a, tr = [⟨m.request hedged, a⟩] := by
  cases m with
  | sign l secretKey message opts =>
    have hh : opts.hedged = .ok hedged := hh
    change Run ok (ofExcept opts.hedged >>= fun h => Js.call (.sign l message.arg secretKey.arg h) : Jsm Bytes).run
      tr r at h
    rw [hh] at h
    exact ⟨_, run_call h⟩
  | keygen l seed => exact ⟨_, run_call h⟩
  | kemKeygen l seed => exact ⟨_, run_call h⟩
  | encapsulate l publicKey => exact ⟨_, run_call h⟩
  | decapsulate l secretKey cipherText => exact ⟨_, run_call h⟩

/-- **Checked before asked**: in every run of every call, whatever the library answers, the first argument that is not
as demanded is refused by an `Error` that names the method and the argument, and the library is asked nothing; if there
is none, it is asked once, with byte arrays of the exact sizes. -/
theorem checked_before_asked {m : Method} (hplain : ∀ d ∈ m.demands, d.value.Plain) {hedged : Bool}
    (hh : m.hedged = .ok hedged) {r : Except Stop m.Result} (hr : Run ok m.call.run tr r) :
    (∀ front d back, m.demands = front ++ d :: back → (∀ d' ∈ front, d'.Met) → ¬d.Met →
      tr = [] ∧ ∃ e, r = .error e ∧ d.Refused e) ∧
    ((∀ d ∈ m.demands, d.Met) → ∃ q a, tr = [⟨q, a⟩] ∧ q.Exact) := by
  rw [Method.call_eq] at hr
  constructor
  · intro front d back hds hfront hd
    have hmem : d ∈ m.demands := by
      rw [hds]
      exact List.mem_append_right _ List.mem_cons_self
    obtain ⟨e, he, hrefused⟩ := Demand.check_of_not_met (hplain d hmem) hd
    rw [hds, guarded_of_first hfront he] at hr
    obtain ⟨htr, hr⟩ := run_throw hr
    exact ⟨htr, e, hr, hrefused⟩
  · intro hmet
    rw [guarded_of_met hmet] at hr
    obtain ⟨a, ha⟩ := Method.run_body hr hh
    exact ⟨_, a, ha, Method.exact_request hmet hedged⟩

/-- `checked_before_asked` for the decapsulation of empty byte arrays: the secret key is refused first. -/
theorem checked_before_asked_empty :
    ∃ e, Run (fun _ _ => True) (Method.decapsulate .l512 (.bytes []) (.bytes [])).call.run [] (.error e) ∧
      (Demand.mk (MlKem.Level.l512.name ++ ".decapsulate") "secretKey" (.bytes []) (some 1632)).Refused e := by
  let d : Demand := ⟨MlKem.Level.l512.name ++ ".decapsulate", "secretKey", .bytes [], some 1632⟩
  have hplain : ∀ d' ∈ (Method.decapsulate .l512 (.bytes []) (.bytes [])).demands, d'.value.Plain := by
    intro d' hd'
    rcases List.mem_cons.mp hd' with rfl | hd'
    · exact .inl ⟨[], rfl⟩
    · obtain rfl := List.mem_singleton.mp hd'
      exact .inl ⟨[], rfl⟩
  have hnot : ¬d.Met := by
    rintro ⟨b, hb, hlen⟩
    cases hb
    exact absurd (hlen 1632 rfl) (by decide)
  obtain ⟨e, he, -⟩ := Demand.check_of_not_met (hplain d List.mem_cons_self) hnot
  have hnil : ∀ d' ∈ ([] : List Demand), d'.Met := fun d' hd' => absurd hd' List.not_mem_nil
  have hcall : (Method.decapsulate .l512 (.bytes []) (.bytes [])).call = throw e := by
    rw [Method.call_eq]
    exact guarded_of_first hnil he
  have hrun : Run (fun _ _ => True) (Method.decapsulate .l512 (.bytes []) (.bytes [])).call.run [] (.error e) := by
    rw [hcall]
    exact .ret _
  obtain ⟨-, e', he', hrefused⟩ := (checked_before_asked hplain rfl hrun).1 [] d _ rfl hnil hnot
  cases he'
  exact ⟨e, hrun, hrefused⟩
/-! ## What the methods return -/

/-- What `@noble/post-quantum` answers about generated keys: it follows the standards, with random bytes of its own for
keys without a seed, hedged signatures and encapsulations. -/
structure Follows (env : ∀ q, Except Stop (Res q)) (S : MlDsa.Standard) (K : MlKem.Standard) : Prop where
  keygen : ∀ l, ∃ ξ, env (.keygen l none) = .ok ((S.keygen l ξ).1.1, (S.keygen l ξ).2.1)
  keygenSeed : ∀ l (ξ : Sized 32),
    env (.keygen l (some (.bytes ξ.1))) = .ok ((S.keygen l ξ).1.1, (S.keygen l ξ).2.1)
  sign : ∀ l ξ m, env (.sign l (.bytes m) (.bytes (S.keygen l ξ).2.1) false) =
    .ok (S.signDeterministic l (S.keygen l ξ).2 m).1
  signHedged : ∀ l ξ m, ∃ rnd, env (.sign l (.bytes m) (.bytes (S.keygen l ξ).2.1) true) =
    .ok (S.sign l (S.keygen l ξ).2 m rnd).1
  kemKeygen : ∀ l, ∃ seed, env (.kemKeygen l none) = .ok ((K.keygen l seed).1.1, (K.keygen l seed).2.1)
  kemKeygenSeed : ∀ l (seed : Sized 64),
    env (.kemKeygen l (some (.bytes seed.1))) = .ok ((K.keygen l seed).1.1, (K.keygen l seed).2.1)
  encapsulate : ∀ l seed, ∃ coin, env (.encapsulate l (.bytes (K.keygen l seed).1.1)) =
    .ok ((K.encaps l (K.keygen l seed).1 coin).1.1, (K.encaps l (K.keygen l seed).1 coin).2.1)
  decapsulate : ∀ l seed (ct : Sized l.sizes.ciphertext),
    env (.decapsulate l (.bytes ct.1) (.bytes (K.keygen l seed).2.1)) = .ok (K.decaps l (K.keygen l seed).2 ct).1

section Results

variable {env : ∀ q, Except Stop (Res q)} {S : MlDsa.Standard} {K : MlKem.Standard}

/-- A method whose demands are met goes on with its request. -/
theorem Method.call_of_met {m : Method} (h : ∀ d ∈ m.demands, d.Met) : m.call = m.body := by
  rw [Method.call_eq, guarded_of_met h]

/-- A byte array of the right size is what is demanded. -/
theorem Demand.met_bytes {fn arg : String} {n k : Nat} (b : Sized n) (h : k = n) :
    (Demand.mk fn arg (.bytes b.1) (some k)).Met :=
  ⟨b.1, rfl, fun _ hk => b.2.trans (h.symm.trans (Option.some.inj hk))⟩

theorem Demand.met_message {fn arg : String} (m : Bytes) : (Demand.mk fn arg (.bytes m) none).Met :=
  ⟨m, rfl, fun _ hk => absurd hk (Option.not_mem_none _)⟩

theorem keygen_eq (h : Follows env S K) (l : MlDsa.Level) :
    ∃ ξ, (keygen l none).eval env = .ok ((S.keygen l ξ).1.1, (S.keygen l ξ).2.1) := h.keygen l

theorem kemKeygen_eq (h : Follows env S K) (l : MlKem.Level) :
    ∃ seed, (kemKeygen l none).eval env = .ok ((K.keygen l seed).1.1, (K.keygen l seed).2.1) := h.kemKeygen l

theorem keygen_seed_eq (h : Follows env S K) (l : MlDsa.Level) (ξ : Sized 32) :
    (keygen l (some (.bytes ξ.1))).eval env = .ok ((S.keygen l ξ).1.1, (S.keygen l ξ).2.1) := by
  have hmet : ∀ d ∈ (Method.keygen l (some (.bytes ξ.1))).demands, d.Met :=
    List.forall_mem_singleton.mpr (Demand.met_bytes ξ (sigLengths_keys l).1)
  have hcall : keygen l (some (.bytes ξ.1)) = call (.keygen l (some (.bytes ξ.1))) := Method.call_of_met hmet
  rw [hcall]
  exact h.keygenSeed l ξ

theorem sign_bytes {l : MlDsa.Level} (sk : Sized l.sizes.secretKey) (m : Bytes) {opts : Opts} {hedged : Bool}
    (ho : opts.hedged = .ok hedged) :
    sign l (.bytes sk.1) (.bytes m) opts = call (.sign l (.bytes m) (.bytes sk.1) hedged) := by
  have hmet : ∀ d ∈ (Method.sign l (.bytes sk.1) (.bytes m) opts).demands, d.Met :=
    List.forall_mem_cons.mpr ⟨Demand.met_bytes sk (sigLengths_keys l).2,
      List.forall_mem_singleton.mpr (Demand.met_message m)⟩
  have hcall : sign l (.bytes sk.1) (.bytes m) opts =
      (ofExcept opts.hedged >>= fun h => call (.sign l (.bytes m) (.bytes sk.1) h)) := Method.call_of_met hmet
  rw [hcall, ho]
  rfl

/-- **`sign`** is deterministic unless `hedged` is `true`. -/
theorem sign_eq (h : Follows env S K) (l : MlDsa.Level) (ξ : Sized 32) (m : Bytes) {opts : Opts}
    (ho : opts.hedged = .ok false) : (sign l (.bytes (S.keygen l ξ).2.1) (.bytes m) opts).eval env =
      .ok (S.signDeterministic l (S.keygen l ξ).2 m).1 := by
  rw [sign_bytes _ m ho]
  exact h.sign l ξ m

theorem sign_hedged_eq (h : Follows env S K) (l : MlDsa.Level) (ξ : Sized 32) (m : Bytes) {opts : Opts}
    (ho : opts.hedged = .ok true) : ∃ rnd, (sign l (.bytes (S.keygen l ξ).2.1) (.bytes m) opts).eval env =
      .ok (S.sign l (S.keygen l ξ).2 m rnd).1 := by
  rw [sign_bytes _ m ho]
  exact h.signHedged l ξ m

/-- A byte array of another length does not meet a demand. -/
theorem Demand.not_met_bytes {fn arg : String} {n k : Nat} {b : Bytes} (h : k = n) (hlen : b.length ≠ n) :
    ¬(Demand.mk fn arg (.bytes b) (some k)).Met := by
  rintro ⟨b', hb, hk⟩
  obtain rfl : b = b' := Arg.bytes.inj hb
  exact hlen ((hk k rfl).trans h)

/-- With an argument of another length, a method throws. -/
theorem Method.call_of_not_met {m : Method} (hplain : ∀ d ∈ m.demands, d.value.Plain) (h : ∃ d ∈ m.demands, ¬d.Met) :
    ∃ e, m.call.eval env = .error e := by
  obtain ⟨e, he⟩ := guarded_of_not_met (p := m.body) hplain h
  refine ⟨e, ?_⟩
  rw [Method.call_eq, he, Raising.eval_throw]

theorem Given.Plain.ofBytes (b : Bytes) : (Given.bytes b).Plain := .inl ⟨b, rfl⟩

/-- A secret key of another size is refused. -/
theorem sign_of_length {l : MlDsa.Level} {sk : Bytes} (hlen : sk.length ≠ l.sizes.secretKey) (m : Bytes) (opts : Opts) :
    ∃ e, (sign l (.bytes sk) (.bytes m) opts).eval env = .error e := by
  have hplain : ∀ d ∈ (Method.sign l (.bytes sk) (.bytes m) opts).demands, d.value.Plain :=
    List.forall_mem_cons.mpr ⟨.ofBytes sk, List.forall_mem_singleton.mpr (.ofBytes m)⟩
  exact Method.call_of_not_met hplain ⟨_, List.mem_cons_self, Demand.not_met_bytes (sigLengths_keys l).2 hlen⟩

/-- A public key of another size is refused. -/
theorem encapsulate_of_length {l : MlKem.Level} {pk : Bytes} (hlen : pk.length ≠ l.sizes.publicKey) :
    ∃ e, (encapsulate l (.bytes pk)).eval env = .error e := by
  have hplain : ∀ d ∈ (Method.encapsulate l (.bytes pk)).demands, d.value.Plain :=
    List.forall_mem_singleton.mpr (.ofBytes pk)
  have hpk : (kemLengths l).publicKey = l.sizes.publicKey := congrArg KemLengths.publicKey (kemLengths_eq l)
  exact Method.call_of_not_met hplain ⟨_, List.mem_cons_self, Demand.not_met_bytes hpk hlen⟩

/-- A secret key or a ciphertext of another size is refused. -/
theorem decapsulate_of_length {l : MlKem.Level} {sk ct : Bytes}
    (hlen : sk.length ≠ l.sizes.secretKey ∨ ct.length ≠ l.sizes.ciphertext) :
    ∃ e, (decapsulate l (.bytes sk) (.bytes ct)).eval env = .error e := by
  have hplain : ∀ d ∈ (Method.decapsulate l (.bytes sk) (.bytes ct)).demands, d.value.Plain :=
    List.forall_mem_cons.mpr ⟨.ofBytes sk, List.forall_mem_singleton.mpr (.ofBytes ct)⟩
  have hsk : (kemLengths l).secretKey = l.sizes.secretKey := congrArg KemLengths.secretKey (kemLengths_eq l)
  have hct : (kemLengths l).cipherText = l.sizes.ciphertext := congrArg KemLengths.cipherText (kemLengths_eq l)
  refine Method.call_of_not_met hplain ?_
  rcases hlen with hlen | hlen
  · exact ⟨_, List.mem_cons_self, Demand.not_met_bytes hsk hlen⟩
  · exact ⟨_, List.mem_cons_of_mem _ List.mem_cons_self, Demand.not_met_bytes hct hlen⟩

theorem kemKeygen_seed_eq (h : Follows env S K) (l : MlKem.Level) (seed : Sized 64) :
    (kemKeygen l (some (.bytes seed.1))).eval env = .ok ((K.keygen l seed).1.1, (K.keygen l seed).2.1) := by
  have hmet : ∀ d ∈ (Method.kemKeygen l (some (.bytes seed.1))).demands, d.Met :=
    List.forall_mem_singleton.mpr (Demand.met_bytes seed (congrArg KemLengths.seed (kemLengths_eq l)))
  have hcall : kemKeygen l (some (.bytes seed.1)) = call (.kemKeygen l (some (.bytes seed.1))) :=
    Method.call_of_met hmet
  rw [hcall]
  exact h.kemKeygenSeed l seed

theorem encapsulate_eq (h : Follows env S K) (l : MlKem.Level) (seed : Sized 64) :
    ∃ coin, (encapsulate l (.bytes (K.keygen l seed).1.1)).eval env =
      .ok ((K.encaps l (K.keygen l seed).1 coin).1.1, (K.encaps l (K.keygen l seed).1 coin).2.1) := by
  have hmet : ∀ d ∈ (Method.encapsulate l (.bytes (K.keygen l seed).1.1)).demands, d.Met :=
    List.forall_mem_singleton.mpr (Demand.met_bytes _ (congrArg KemLengths.publicKey (kemLengths_eq l)))
  have hcall : encapsulate l (.bytes (K.keygen l seed).1.1) = call (.encapsulate l (.bytes (K.keygen l seed).1.1)) :=
    Method.call_of_met hmet
  rw [hcall]
  exact h.encapsulate l seed

theorem decapsulate_eq (h : Follows env S K) (l : MlKem.Level) (seed : Sized 64) (ct : Sized l.sizes.ciphertext) :
    (decapsulate l (.bytes (K.keygen l seed).2.1) (.bytes ct.1)).eval env =
      .ok (K.decaps l (K.keygen l seed).2 ct).1 := by
  have hmet : ∀ d ∈ (Method.decapsulate l (.bytes (K.keygen l seed).2.1) (.bytes ct.1)).demands, d.Met :=
    List.forall_mem_cons.mpr ⟨Demand.met_bytes _ (congrArg KemLengths.secretKey (kemLengths_eq l)),
      List.forall_mem_singleton.mpr (Demand.met_bytes ct (congrArg KemLengths.cipherText (kemLengths_eq l)))⟩
  have hcall : decapsulate l (.bytes (K.keygen l seed).2.1) (.bytes ct.1) =
      call (.decapsulate l (.bytes ct.1) (.bytes (K.keygen l seed).2.1)) := Method.call_of_met hmet
  rw [hcall]
  exact h.decapsulate l seed ct

end Results

end QorechainPqc.Js
