import QorechainPqc.Verify.Compiled
import QorechainPqc.Verify.Js
import QorechainPqc.Verify.Liboqs

/-!
# One verdict in every language

The six libraries behind the bindings are parameters (`Backends`), of which it is assumed that they compute FIPS-204 on
exact sizes, and of two of them how they refuse other sizes (`Backends.Compute`). Then the six bindings give the same
verdict on all byte strings, and no exception escapes (`same_verdict`).
-/

namespace QorechainPqc

open Program

/-- The libraries: CIRCL, `fips204`, `@noble/post-quantum`, liboqs-python, Bouncy Castle and liboqs. -/
structure Backends where
  circl : MlDsa.Level → Go.Scheme
  fips204 : ∀ l, Rust.Fips204Crate l
  noble : MlDsa.Level → Js.Noble
  liboqsPython : ∀ q, Except Python.Exn (Python.Res q)
  bouncyCastle : Java.BouncyCastle
  liboqs : ∀ q, C.Ans q

/-- What the libraries do. -/
structure Backends.Compute (b : Backends) (V : Fips204) : Prop where
  circl : ∀ l, (b.circl l).Computes V l
  fips204 : ∀ l, (b.fips204 l).Computes V
  noble : ∀ l, (b.noble l).Computes V l
  liboqsPython : ∀ l, Python.Computes b.liboqsPython V l
  bouncyCastle : ∀ l, b.bouncyCastle.Computes V l
  liboqs : ∀ l, C.Computes b.liboqs V l

/-- **One verdict**: for every level and all byte strings the six bindings say yes exactly if the sizes are exact and
the signature is valid, and no otherwise; `batchVerify` returns the index of the first no. -/
theorem same_verdict (V : Fips204) (b : Backends) (h : b.Compute V) :
    (∀ l pk msg sig,
      (Go.sigScheme b.circl l).verify pk msg sig = V.verdict l pk msg sig ∧
      Rust.verify (b.fips204 l) pk msg sig = V.verdict l pk msg sig ∧
      Js.verify b.noble l (.bytes pk) (.bytes msg) (.bytes sig) = .ok (V.verdict l pk msg sig) ∧
      ((Python.MlDsa.ofLevel l).verify (.ofBytes pk) (.ofBytes msg) (.ofBytes sig)).eval b.liboqsPython =
        .ok (V.verdict l pk msg sig) ∧
      Java.mldsaVerify b.bouncyCastle (some (Java.str l.name)) (some pk) (some msg) (some sig) =
        .ok (V.verdict l pk msg sig) ∧
      ((C.qpqcMldsaVerify (Text.utf8 l.oqsName.toList) pk msg sig).eval b.liboqs = 1 ↔
        V.verdict l pk msg sig = true)) ∧
    (∀ l ts, Js.batchVerify (Js.verify b.noble l) (ts.map Js.Item.ofBytes) =
      .ok (Js.firstFailure (fun t => V.verdict l t.1 t.2.1 t.2.2) ts 0)) := by
  refine ⟨fun l pk msg sig => ⟨?_, ?_, ?_, ?_, ?_, ?_⟩, fun l ts => ?_⟩
  · exact Go.verify_eq (h.circl l) pk msg sig
  · exact Rust.verify_eq (h.fips204 l) pk msg sig
  · exact Js.verify_eq (h.noble l) pk msg sig
  · exact Python.verify_eq (h.liboqsPython l) pk msg sig
  · exact Java.mldsaVerify_eq (h.bouncyCastle l) pk msg sig
  · exact C.qpqcMldsaVerify_eq_one (h.liboqs l) pk msg sig
  · exact Js.batchVerifyFrom_eq (fun t => Js.verify_eq (h.noble l) t.1 t.2.1 t.2.2) ts 0

/-- Some binding gives a verdict. -/
inductive Checks (b : Backends) (l : MlDsa.Level) (pk msg sig : Bytes) : Bool → Prop
  | go : Checks b l pk msg sig ((Go.sigScheme b.circl l).verify pk msg sig)
  | rust : Checks b l pk msg sig (Rust.verify (b.fips204 l) pk msg sig)
  | js {v : Bool} (h : Js.verify b.noble l (.bytes pk) (.bytes msg) (.bytes sig) = .ok v) : Checks b l pk msg sig v
  | python {v : Bool} (h : ((Python.MlDsa.ofLevel l).verify (.ofBytes pk) (.ofBytes msg) (.ofBytes sig)).eval
      b.liboqsPython = .ok v) : Checks b l pk msg sig v
  | java {v : Bool} (h : Java.mldsaVerify b.bouncyCastle (some (Java.str l.name)) (some pk) (some msg) (some sig) =
      .ok v) : Checks b l pk msg sig v
  | c : Checks b l pk msg sig
      (decide ((C.qpqcMldsaVerify (Text.utf8 l.oqsName.toList) pk msg sig).eval b.liboqs = 1))

/-- Whichever binding it is. -/
theorem Checks.eq_verdict {V : Fips204} {b : Backends} (hb : b.Compute V) {l : MlDsa.Level} {pk msg sig : Bytes}
    {v : Bool} (h : Checks b l pk msg sig v) : v = V.verdict l pk msg sig := by
  cases h with
  | go => exact Go.verify_eq (hb.circl l) pk msg sig
  | rust => exact Rust.verify_eq (hb.fips204 l) pk msg sig
  | js h => exact Except.ok.inj (h.symm.trans (Js.verify_eq (hb.noble l) pk msg sig))
  | python h => exact Except.ok.inj (h.symm.trans (Python.verify_eq (hb.liboqsPython l) pk msg sig))
  | java h => exact Except.ok.inj (h.symm.trans (Java.mldsaVerify_eq (hb.bouncyCastle l) pk msg sig))
  | c =>
    have hiff := C.qpqcMldsaVerify_eq_one (hb.liboqs l) pk msg sig
    cases hv : V.verdict l pk msg sig with
    | true => exact decide_eq_true (hiff.mpr hv)
    | false => exact decide_eq_false fun h => Bool.false_ne_true (hv.symm.trans (hiff.mp h))

/-! ## Libraries to take -/

/-- A level by a name. -/
def levelOf {α : Type} [DecidableEq α] (name : MlDsa.Level → α) (a : α) : Option MlDsa.Level :=
  [.l44, .l65, .l87].find? fun l => name l = a

/-- liboqs with the levels. -/
def C.referenceVerify (V : Fips204) : ∀ q, C.Ans q
  | .sigNew alg => (levelOf (fun l => Text.utf8 l.oqsName.toList) alg).map .ofLevel
  | .verify s msg sig pk => decide (sig.length = s.lengthSignature) && s.set.any fun l => V l pk msg sig
  | .kemNew _ => none
  | .malloc _ => none
  | .sign _ _ _ => (false, none)
  | .keypair _ | .encaps _ _ | .decaps _ _ _ => false
  | .sigFree | .kemFree | .mutexLock | .mutexUnlock | .customZero | .switchSystem | .storePtr _ _ | .storeLen _ _ => ()

/-- liboqs-python with the levels. -/
def Python.referenceVerify (V : Fips204) : ∀ q, Except Python.Exn (Python.Res q)
  | .verify s msg sig pk => .ok ((levelOf (fun l => Python.str l.oqsName) s.alg).any fun l =>
      V l pk.contents msg.contents sig.contents)
  | .generateKeypair _ | .exportSecretKey _ | .sign _ _ => .ok []
  | .kemGenerateKeypair _ | .kemExportSecretKey _ | .decapSecret _ _ => .ok []
  | .encapSecret _ _ => .ok ([], [])
  | .boundary _ | .lockAcquire | .lockRelease | .customZero | .switchSystem => .ok ()
  | .signatureNew _ | .signatureFree _ | .kemNew _ | .kemFree _ => .ok ()

namespace Backends

/-- Libraries that compute a given verification. -/
def reference (V : Fips204) : Backends where
  circl l :=
    { PublicKey := Bytes
      signatureSize := l.sizes.signature
      unmarshalBinaryPublicKey := fun pk => if pk.length = l.sizes.publicKey then .ok pk else .error "wrong size"
      verify := fun pk msg sig => V l pk msg (sig.take l.sizes.signature) }
  fips204 l :=
    { PublicKey := Bytes
      tryFromBytes := fun pk => .ok pk.1
      verify := fun pk msg sig _ => V l pk msg sig.1 }
  noble l := ⟨fun sig msg pk => match sig, msg, pk with
    | .bytes sig, .bytes msg, .bytes pk => .ok (.boolean (V l pk msg sig))
    | _, _, _ => .error .typeError⟩
  liboqsPython := Python.referenceVerify V
  bouncyCastle := ⟨MlDsa.Level × Bytes, fun l pk => .ok (l, pk), fun k msg sig => .ok (V k.1 k.2 msg sig)⟩
  liboqs := C.referenceVerify V

variable (V : Fips204)

theorem reference_circl (l : MlDsa.Level) : ((reference V).circl l).Computes V l where
  size := rfl
  exact pk msg sig he := by
    have hkey : ((reference V).circl l).unmarshalBinaryPublicKey pk = .ok pk := if_pos he.1
    rw [hkey]
    exact congrArg (V l pk msg) (List.take_of_length_le he.2.le)
  refuses pk hp := ⟨_, if_neg hp⟩

theorem reference_compute : (reference V).Compute V where
  circl := reference_circl V
  fips204 l := fun pk msg sig => rfl
  noble l := fun pk msg sig he => .inl (by
    change Except.ok (Js.Value.boolean (V l pk msg sig) == .boolean true) = .ok (V l pk msg sig)
    cases V l pk msg sig <;> rfl)
  liboqsPython l := ⟨fun _ => rfl, rfl, rfl, fun pk msg sig he => .inl (by cases l <;> rfl)⟩
  bouncyCastle l := fun pk msg sig he => .inl rfl
  liboqs l :=
    { sigNew := by cases l <;> rfl
      exact := fun pk msg sig he => by
        have hlen : decide (sig.length = (OqsSig.ofLevel l).lengthSignature) = true := decide_eq_true he.2
        exact (congrArg (· && V l pk msg sig) hlen).trans (Bool.true_and _)
      refuses := fun pk msg sig hs => by
        have hlen : decide (sig.length = (OqsSig.ofLevel l).lengthSignature) = false := decide_eq_false hs
        exact (congrArg (· && V l pk msg sig) hlen).trans (Bool.false_and _) }

end Backends

/-! ## A signature -/

/-- The public key of the first case of `vectors/ml-dsa-44.json`. -/
def vectorPublicKey : Bytes :=
  [
    0xc15499cab16a2391bba74a8e42ec478dcf7ff69574369cf40decc03073c1779a4c0abc66f3cf1b2c5e,
    0x8007d8d26e942a778a30e3480f4e8c9ca4575ddbdf50dca526c752dcf7ac612b3a6f8e3caadfd71886,
    0x9b91827d0fbc56f0a80cf9c171c041c3afc631c9bca6d3bbecb03bb9e410daeaa8f0d68219311c40c0,
    0xa343159ba7b5180fe43b0072b27757c32c54f21c1b47045f613c0a74aa1e58946e964d85ea3973b3c0,
    0xc957c102147fe6973143fbe230075c1bfad4ab7eb1c94d2b23cb4a23a2b0cfcd34dcf3a4efab068583,
    0xb26513f770bd52afb40a6b704eac6e77372cd3e90b503e0a874cf2c0cd6b13a12f298aa3843ca8769b,
    0x11cccb6e250467040cb7e1dff79c30f8420b54b18407dde5de4e4356c3dce6ef3b05851886d39d3bef,
    0x8987c1eb95d13a8ab246fa3e3f41f0fe585015380e6832b849ac2f4f3a76630043f833d9cd30550420,
    0x7c06cd0f7f0a6b7303c91541c619dc2dd9d4f858d5d4944c4ee932b47e2b4b921822f0de5f3bc15fb1,
    0x30cb8da7d398202413c1800e8d928c1f2802f2cb45908c7b5f7514cf61d6c97b349164a4c3da2d4e41,
    0xbe38a1f69d0e85bc60b1964f76bee4cefd30232c834fc1ece3097b0d08969efb4893c36e9d3b65ef6d,
    0x57ffa5dffa815407a55c940e8f8710187733adc79db59685afc85dc79b5e2749e4b04faa661e7e62e3,
    0xd332622fb4dc5bb90af2554a748e7e0988b68063effc5002c391d5a9b66aae953e738fc1543bf0160c,
    0x70edea8f62e412a011321562d43529bff522f710eb3203a0a1f425f28e669f9f1c00dc317c762bbb8f,
    0x56bc48991ecf1328ec3e302677cbacea78498c6abaf203c904857ef7029743e3633a63895c4580d45e,
    0x43b1ffa6578d5173df6f49c19fe5801f74f0a8fe64b98b12303f8b08d40b7c765c8b28ad80f8c2f337,
    0xf37dbf8e714de625f6bea06938ce11ed6ec55ca0e871098b67b759bca5a47dd17fb68741e446095ca5,
    0x0d4f8b6cc8cc0df3a37a934aa3541568f62b75e8d3413e771a316144e1157faf210f91fb71903e1cdc,
    0x8b57c67339d480b5a2d98a5cf88afe6f03d4a2c6bbcd888930f8f1e44e94defc2321c72980134568ff,
    0x1c10210327d0a13059dcb9f19bc7928fae9f183f0203e7a6df9aae47a040defe55b17c035eb5a0ca0a,
    0x5c411fcd507390363d7b7dd729836a6f935fd2e3f61c6f04a8e310518f6769d76f309e0434bd1bd41e,
    0x8bbfda67ae34a880b25278a17f304d6951867d2c69cad06e7e73d9acfff57b7ef6576fe586677599d9,
    0x49b31fae3226cb584f454bc7a9e12ff366cbcdc2f58922b0f3021a96520b903ac239a4bbd3f8445120,
    0xa648ce3ec767d0e4818275a92080945ee01ce7ea50d62463b08db26721c42cd6ec5cdfb35f68b31c6b,
    0x79bc38650314d47605066a085052c785754c2894e4eb833d42eeac8a0d237722e2baf12b7e426dcfd6,
    0x1b437435a2465939a1394e09398786dcdcaa23bf24688d0d749640192d594fd14433c41217cc3ac9a7,
    0xfdc3ce6efe2bc12b3096fa60523a6253adcfc9edac3a0d1fae783495576b66965f8c5168e68183afc4,
    0xaf9449eea1f0dfc03f2af8e7f22affc004ff8ef1b07bcec42904690574d41a31162bb16104898ec67c,
    0xa446a994c9a3f4595a6e87ce90833910e14979d342d9c57007df8997db0cd5d5964688f20121f3cfe3,
    0x5169372c75ae15f64d8e5a092cb32d61b0875a3cb7a11fdd9d719db12c9074acd56b969afce285c15f,
    0xbb357fe4eb08cc29e1b5792c99ab441dce52351d02562e0c460c6ae0102e3b4e8f20fb0f85c6933222,
    0x82c1c4c32131be75543a97f8296e760d8422c178598bf97636766269eb96cf47a1801e6548c024e526
  ].flatMap (Framing.beBytes 41)

/-- Its message, `qorechain-pqc/vector/0`. -/
def vectorMessage : Bytes := Text.utf8 "qorechain-pqc/vector/0".toList

/-- Its signature. -/
def vectorSignature : Bytes :=
  [
    0xccc81ed70836d3318bcd1e2a572dbe7f5a910cdb7c3b41ed69f9a473740ac7110d02ffbf9df2b0bc7ce23c3264005cfa79a2255953db78,
    0x2b2c61b48b14b0dd56e7267175ac27c9a732dcee07b0d1bd739b77b9db2f3a639c797a5c0ac15c1d1ced35fe633dac5cf40a117f7c40e4,
    0x51b1fe53be09f4056b9016f59b0cb2f9a08c2ccd19ff8b8de553a6a98070fa5a056ff9582ae6f21e5a8f5a759d3804273cb3afc11ae21d,
    0x1092127c1d1bce023405b60e07cf17a4325e24d760a31d6bdbd348264795d41c4dfcba689431f3b15e6ae3a86d61e1e9e8c8ee262bdd75,
    0x6109191357b704a40ede4d9dce53880aa69de78852ca74230e0c1caae02a5e242777d77a9aeb4842853195e9a6814c1a5148d4502caa5a,
    0x451318c96916b209977a674429cfe2d926056b02bdb399366fb3ee88d7fd6f2f8058b9eda117dde618e8ffe4346bef20d595900ea507f1,
    0x38d2787f7363b02cc85ebbeb057807a1f85b77e93adedfc309b3ecaaba3e7e21bc01591d7aa5081c94b744c3da8724d7c087ace3f225ba,
    0xc731de21bd6acfa3e262f4d9186695f5d00d6f126b14554cb276bb88c0bb9c5130f1cbdf5c050b08bc85e2d882b5bb9f7db704977ace93,
    0x765347a37e706f926a8a74ace17f6c69716ca90a270bebf076ba40b1502f07dc7e9231f90beb944d94bca9631cde7e1e114ebd9c74c0fc,
    0x121b093b6fb4c634548c0daea4808772c0464d19dd4e300bb6b4d6fef729a60062c12e08fa8acb20ae7656f35118d45e4aada11c5f1bb1,
    0xd52c7ef9da45c2bb04b0a16472a78c6d7cdaeba2196d03e462de29183e76ce9bb10942440f32a049ed6f70f1879d7026582e24979fa39b,
    0x68b3149045d348fe7efc2925449258f032923b1183dfc4377e4fd765bc643bcac44af66d0369e81f9f29bc961d51a99c160f055edaa9fa,
    0x36c73f89aa6663e5bb2d6278fc768275d5552eda6a089e000f573e2446fb4a12642e71f45701105947cb2d54102314f229e2111ac08d48,
    0xff4d2863bd651fadf7482fc6884c6ea3f8cd1a173b02ce2458e26f782dcf7d24b0844ba5d4a44052d883bf826cb3213b44b4851477a3b8,
    0x8daba95829de9bb80d1efdbf75101d1d78e30e8828051dea2f547e280ed0f07529c983ecda41520c2d8bb9263ef5f496c65dfab7dd25ee,
    0xf8b8ed5bd8c889729381e635f2c5ebed9e1c6502adf2c90c3bb3856dd08d4e0248507561554ec0bf9249c7cacbe850c9eb8aa534b1e327,
    0x1bdb8cbb62762c2f9f234bdbf08421947be78171f24bd6f6ab389921add77c1f30b9af68279a66077cbb206e23e28b0fc1612fc6244143,
    0x886777c42a7d40d4577e74b752750a02260d3e8068d2c133ab93b8725c916000dd14504206f38225ef304fac45b7d193714b4cc38a5975,
    0x72dd76a5c443d34603244fb09dad8ba0eb8e7c85867d28329437098f3e8cfcecc86bc81fa644670362a77bd5c12a850c65f7128d8bc9fd,
    0x3d1278d87856a9ca82cf80afc1687f93275224971bb8a72ffe93b5dcc9e92f8535b38f08e28fadf21a7b8c97329088b0cb8a8a1a5e9297,
    0x167117a25db79eeaaf2a5da6d32fbc4c020e70721ec60d7fbdb4d3dea13b9ecfc82dd32ae85dd5a3c372a3a576d3d9948435375f09bafe,
    0xbb538e83b188500d736dcd36ee1aa76e2be9065facfc74a41b232566520dedc56e46f7a0229f114398aa679fe714c3322933f1d72ecc12,
    0xa694aa9bb3ca0dbdd611e09d7bf413a34be6f872404c8e9d717898d8be0b7c11a722849cba6660df763c2bb674d4ebc4efe6677f4bae1f,
    0x37c614858d0761c060a719d228dd7f113fd10671e74c7c2ab482503ac11e6ca3e9b377ac0ecf9792c921f6b4159e3f926219cd0dd7db26,
    0x90a182b44869d5b7d1148558614e086e7f770e9d8b745b691109af797ed9f765e71bd8f8fe77469e5fd59056d0de35237b14129a0fb8a6,
    0x4e29455d4ebe71c73b182849d5bfc88e8dcd274cc9d72872d7cffb14b8f6c4a5ade244db67f4d514f1df3b587a3170ff85206d8e9ad3c2,
    0x71f52a645c388efbaf62ed120805b49c17fc6595350e1472d9419d8e99b10b86b8185365f4763b0b829a6452d42d30cc44d9f62a2ae955,
    0xc6a3ee3d09ca4fdc6eb601245c48fee79535a990a12e093560a64525906914d9f0e9a13a063fa54abe9efc56357cb32ab13d9189e97219,
    0xee21489cd472ee291f16ae462180f8019f78a235225cdddcad6d8cc2934847092966e01a242e5492a919071d20f76747e5a5b65ee4875a,
    0xd912261e7f26e4c6bfb8eb3ff24f1a0bbb794a308ec03b232a0979b75c315ebf8f97ba031bc727d763ad2485a9fe9e35954ff75d73f008,
    0xe63f334d709b06c80ed895543a39e1a1c9e0bda5054745627dd8d917dd6183d64f46f8aab4185bc7d2d9516efc8ff3f8a029a964d1611c,
    0x1b13372cb04c8f9f5c3e7aba4c73c48e4147e7b1ae12384b6704783a4ccffeb52a664f231b3526f45c37c9f7ecbae1251ba766c7c23d1d,
    0x8681a26ac1a83059109ac4efc5f6ae60b62762155ede9221029785f4596f1c50bc58209a5d27dafa6c089de7d1dbbd49b55e761054394b,
    0xe8935eed05348cf99366bb13b44aa8545400397deff4d332df0870834769b752a68341a831f9ac01101d13be412b0625268bdfe7800952,
    0xd62f16ff115efcf9abbd6f57ca8f5f570ff3f403a9998b58c49a1103a1209ffde1472f94077af23ef084beb1e8225194b73360c351f1da,
    0xa13abf5d6ab2f492b70ba89505f1fbe3a9992595451d21c30fcddbeac2f97aca50e06e05b9974fbf83c5fbe1d44603f07ebed3838c721e,
    0x0df99933cab651da7a60af265e667114236b1c96a5f3ad0038dfe25472abcfc8cc2cf94d66c9a941c860a90429caa084d46772b3c9ec0d,
    0x405b8b8acf768901dc4473b2848e59ee6c35fc24f8b3b2fc5a8d20dfeff102070822d52a7e0abc71355daf1a13badd117284811d660b73,
    0x3dbc7ba1836f17b0c3bb4d45283e96b5768fd2392db9473eae35b84981d38777c551b51f90df9b5e74d81eedfd41e2adc400661a3c3ca9,
    0xf3e0dc304813a56bfb590e0782497d0a692fe4228428fef509c524143a966569fbd129a6bd5aa5a77a0ca8f644ed52242f6162f85660ba,
    0x0322a85fb2d698ffd7ef37c23787511aeeefe3c6a36ff1aa8472289e3d5e2051d39903b5df1af69dbd886e80420caf7c7f1cc591f57701,
    0xb562e5395273a7fae4f15e38600e7c9921d3a89987c85ccb6403ed9d0b6a8c6e9caa62eefc8d64311a7a80c8da6ac917b0582e62197aed,
    0xd2135ec066eece84e84e8a09f3c001f8c71a9d4eb973cc78bcb2041123293342526b6f7e8391a2a9bcc4c5d0011d2935414f6298d7d8ed,
    0xf5f90207091a313643585a97acbcdde3e5f4f802112d414c4f51566c8387979fa2b7c4d5d9dbe7e8f500000000000000000000121f3046
  ].flatMap (Framing.beBytes 55)

/-- What FIPS-204 says of the case, and of signatures of zeros. -/
def vectorVerify : Fips204 := fun l pk msg sig =>
  decide (l = .l44 ∧ pk = vectorPublicKey ∧ msg = vectorMessage ∧ sig = vectorSignature)

theorem length_flatMap_beBytes (w : Nat) (ns : List Nat) : (ns.flatMap (Framing.beBytes w)).length = ns.length * w := by
  simp [List.length_flatMap]

theorem vector_exact : MlDsa.Level.l44.Exact vectorPublicKey vectorSignature :=
  ⟨length_flatMap_beBytes 41 _, length_flatMap_beBytes 55 _⟩

theorem vector_valid : vectorVerify.verdict .l44 vectorPublicKey vectorMessage vectorSignature = true := by
  rw [verdict_of_exact vector_exact]
  exact decide_eq_true ⟨rfl, rfl, rfl, rfl⟩

theorem zeros_invalid (pk msg : Bytes) (n : Nat) : vectorVerify.verdict .l44 pk msg (List.replicate n 0) = false := by
  have hne : List.replicate n 0 ≠ vectorSignature := by
    intro h
    have hhead : vectorSignature.head? = some 0xcc := by decide +kernel
    rw [← h] at hhead
    cases n <;> cases hhead
  have hinvalid : vectorVerify .l44 pk msg (List.replicate n 0) = false := decide_eq_false fun he => hne he.2.2.2
  rw [Fips204.verdict, hinvalid, Bool.and_false]

/-- `same_verdict` on this signature, and on one of zeros. -/
theorem same_verdict_vector :
    (let b := Backends.reference vectorVerify
    (Go.sigScheme b.circl .l44).verify vectorPublicKey vectorMessage vectorSignature = true ∧
    Rust.verify (b.fips204 .l44) vectorPublicKey vectorMessage vectorSignature = true ∧
    Js.verify b.noble .l44 (.bytes vectorPublicKey) (.bytes vectorMessage) (.bytes vectorSignature) = .ok true ∧
    (C.qpqcMldsaVerify (Text.utf8 MlDsa.Level.l44.oqsName.toList) vectorPublicKey vectorMessage
      vectorSignature).eval b.liboqs = 1 ∧
    (Go.sigScheme b.circl .l44).verify vectorPublicKey vectorMessage (List.replicate 2420 0) = false ∧
    Js.batchVerify (Js.verify b.noble .l44) ([(vectorPublicKey, vectorMessage, vectorSignature),
      (vectorPublicKey, vectorMessage, List.replicate 2420 0)].map .ofBytes) = .ok 1) := by
  obtain ⟨hall, hbatch⟩ := same_verdict vectorVerify _ (Backends.reference_compute vectorVerify)
  obtain ⟨hgo, hrust, hjs, -, -, hc⟩ := hall .l44 vectorPublicKey vectorMessage vectorSignature
  have hzeros := zeros_invalid vectorPublicKey vectorMessage 2420
  refine ⟨hgo.trans vector_valid, hrust.trans vector_valid, hjs.trans (congrArg _ vector_valid), hc.mpr vector_valid,
    (hall .l44 _ _ _).1.trans hzeros, ?_⟩
  rw [hbatch, Js.firstFailure_cons, Js.firstFailure_cons, vector_valid, hzeros]
  rfl

end QorechainPqc
