import TokenGate.Rsa.Signature
import TokenGate.Text.Bytes

/-!
# Fixed keys for sample tokens

Tokens that are made with these keys are the same at every run. They are known to everybody, so
nothing that has to be kept safe may depend on them.

* `SampleKeys.secret`                    a shared secret of 32 bytes;
* `SampleKeys.first`, `second`, `short`   RSA key pairs.
-/

namespace TokenGate.SampleKeys

def secret : List UInt8 := Text.bytes "bearer-auth-test-secret-32-bytes"

/-- 2048 bits -/
def first : Rsa.PrivateKey where
  modulus :=
    0xc246fb2d768817af3d4cb097957a35e9274693c332ad3f532b33b62af8560103f318697da0d1531718c001d47970cbe41367ae965e2a132b1e6426e4d2917368ebd51c83129d5ab13488ad867a142a7139adcba6ad4e93dc48961ab312cb72b67eacb27b027009e400cd3d581d775f236675d04b31df442918fa3ae7e7b4c7b26d4eb21ce3e67c812741b386210a647353b75b47c95fbe9a365d25d904d864fcf36a61d72a63e3a5d845254858d5badd1cc184d67e361dffcb79584b031a6bc146dd0d1a1cddacd9202ee43695da3b0bb1781bcfd746165dd7e35dae233ea68ec0e45b5e4eee5cdb1b8f8fd3735889d19c3f97418a502ed4b14cdf81686a4497
  exponent := 65537
  secretExponent :=
    0x4761ed487714ea1ee957144b9e10995e619ffd0aebc3dc50a2bf0d601c7efd408641a20116e5d2b1d9d632d5ef0912e16a7fde1641e313c7f412b877bb26d650e6d616f3d2131f0f9d4ddaf45e46aa918fafdbf412199d1a835123de4839989c954ebf05938fb7129f78c9e1667245f2abe2fdf5a30d75ede3cf8d75481d9481c6e23fff2de398c6ab3a2ad8307ac83471c8f6793e4e9a42d1f5e441b0321d400ab5a3fcae34a423bd8ca39e1ad2499dd7b8ea60947989db6a42affd54560f440d6cffdf9aaf6ccce7bbffa75ca426196c2d576e61118e54af0b843d164520a27cd4a427b4b4132fe416fd7e71a893e1eda4d574e7fe9f07437d794fd7114581

/-- 2048 bits, unrelated to the first -/
def second : Rsa.PrivateKey where
  modulus :=
    0xd8b86e3e316a957898c16566eafe6d77adc6341ffd640ca607f2c2142e0aa6a21fa632eab80a3ca2f4962c3a9c79cffb86782dfc4eec8c2548cd76a1fbafb921cacec878a5e15cc2a986dfb3001ea7bbbf9aca3126fd853996c17869ac8584d9abcb980ccd7c606b2067b0240586dca871f2673cf57fd57e2057b7024bb910ad5f38d3929c61620413a900c1ea0e8d936d4a1ea9f413d4fad5f682307bd27eceaf4580961143f6154182dedd9be26ce55fae188134a9ecc195b7e49839919b50bc79e6189fd6d300954565781cfa2f1106f44d1fa173c5aaa1d9294771fe88e7a72b68403c62905750f8bc578f1b65b3e39b0304355afd49e2de7e4b2b5711f3
  exponent := 65537
  secretExponent :=
    0x4f71f893daf8a7f79003e160c3876668a76ecf9fe47b3f39c413253b518f7cfb549fcfed846ed840a269c4a7edc1a7d11c3fc517c774e6812a798b62210a0f53486dda468404a3c506715762de89de523090954b44704e5cc89b7ec13a49ade43f9a80503d29b98cbbd1d6dbb59cf519d8bf9441dffb2f2fafba87ef9303b20d376aa3f0efa2403b81cd3a14698e717878512865dac2535044e82a27f81b0944b1adec63e4511cfc15d00dd672753b5fa804273e1a88812c8d56b23ad9faef9ae5cc2e4980b1a363c45bbcb121fccca2969c937d0265a557508339c457d471ae1e29c553febe01e0014081e4f3828afd831722c79e3bbcc0a5b44da3b08b8bdd

/-- 1024 bits, too few for any signature to be accepted -/
def short : Rsa.PrivateKey where
  modulus :=
    0xb00df989edd49e280408de267ffa65ff8baec812634e3c2993b8c8f2f65600f6a007057ca27beed793beeeb87d66af4deb32e4dc9cb269ac21c8627cda3a55eef20cb7e692d6be8ec719c9c0bd5c51a4749bff9f13853298eac3f86aec502ac4d0139fdd6da1b72176f2a46cb798faeb1483d3ec7b408df9f7ec7a0dd3feb485
  exponent := 65537
  secretExponent :=
    0x215df4ae8c91e08bcafff742aabcc57a227a34d72f551397f9b46af98970916c2cb647f6f040b6eacac8c42bd9308e07218d9acca932334ef974261e6da9e2c13f10237a1aca5b95aae9f0eb57091e0aa72601302fcd2d916fc681c456f4d7c4e1c94b32226139505d9d3d64b7b2c35bcaf0f0855c432a664cbf250f4025387d

end TokenGate.SampleKeys
