import QorechainPqc.Lib.BigEndian
import QorechainPqc.Lib.SelfDelimiting
import QorechainPqc.Lib.Buffer
import QorechainPqc.Lib.Unicode
import QorechainPqc.Lib.Numeral
import QorechainPqc.Lib.Except
import QorechainPqc.Lib.Detect
import QorechainPqc.Lib.Prog
import QorechainPqc.Lib.LockGuard
import QorechainPqc.Lib.Raise
import QorechainPqc.Lib.Machine
import QorechainPqc.Lib.Atomic
import QorechainPqc.Lib.Progress
import QorechainPqc.Lib.Xof
import QorechainPqc.Lib.Heap
import QorechainPqc.SignBytes.Format
import QorechainPqc.SignBytes.Rule
import QorechainPqc.SignBytes.C
import QorechainPqc.SignBytes.Go
import QorechainPqc.SignBytes.Rust
import QorechainPqc.SignBytes.Js
import QorechainPqc.SignBytes.Java
import QorechainPqc.SignBytes.Python
import QorechainPqc.SignBytes.Bindings
import QorechainPqc.SignBytes.Agreement
import QorechainPqc.SignBytes.Primary
import QorechainPqc.SignBytes.ChainIds
import QorechainPqc.SignBytes.Separation
import QorechainPqc.SignBytes.Lengths
import QorechainPqc.SignBytes.JsSource
import QorechainPqc.SignBytes.JsLayout
import QorechainPqc.SignBytes.DynamicJs
import QorechainPqc.SignBytes.DynamicPython
import QorechainPqc.SignBytes.Dynamic
import QorechainPqc.SignBytes.HeightStrings
import QorechainPqc.SignBytes.Heights
import QorechainPqc.Liboqs.Scheme
import QorechainPqc.Liboqs.C
import QorechainPqc.Liboqs.Python
import QorechainPqc.Liboqs.Isolation
import QorechainPqc.Liboqs.Progress
import QorechainPqc.Liboqs.Restore
import QorechainPqc.Liboqs.Confinement
import QorechainPqc.Liboqs.Outputs
import QorechainPqc.Liboqs.Memory
import QorechainPqc.Liboqs.Threads
import QorechainPqc.Verify.Verdict
import QorechainPqc.Verify.Compiled
import QorechainPqc.Verify.Js
import QorechainPqc.Verify.Liboqs
import QorechainPqc.Verify.Agreement
import QorechainPqc.Verify.Total
import QorechainPqc.BouncyCastle.Java
import QorechainPqc.BouncyCastle.Contract
import QorechainPqc.Keys.Standard
import QorechainPqc.Keys.Js
import QorechainPqc.Keys.Compiled
import QorechainPqc.Keys.Reference
import QorechainPqc.Keys.Liboqs
import QorechainPqc.Keys.Unfailing
import QorechainPqc.Keys.Python
import QorechainPqc.BouncyCastle.Objects
import QorechainPqc.Keys.Agreement
import QorechainPqc.Keys.Ciphertexts
import QorechainPqc.Hash.Shake
import QorechainPqc.Network.World
import QorechainPqc.Network.Transactions
