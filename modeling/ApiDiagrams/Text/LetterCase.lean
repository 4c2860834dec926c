import ApiDiagrams.Text.Ranges

/-!
# Small and capital letters

The simple case maps of Unicode 17: one character for one character, whatever the language. The
tables list the letters outside ASCII whose other form lies a fixed distance ahead (`+`) or
behind (`~`).

* `toLower`, `toUpper`: the two maps, on characters;
* `lowerText`, `upperText`: the same on texts;
* `foldCase`: the form in which field names are compared.
-/

namespace ApiDiagrams
namespace Text

/-- Letters with a small form elsewhere, and its distance. -/
def lowerRows : List String := [
  "c0-d6+20 d8-de+20 100+1 102+1 104+1 106+1 108+1 10a+1 10c+1 10e+1 110+1 112+1 114+1 116+1",
  "118+1 11a+1 11c+1 11e+1 120+1 122+1 124+1 126+1 128+1 12a+1 12c+1 12e+1 130~c7 132+1 134+1",
  "136+1 139+1 13b+1 13d+1 13f+1 141+1 143+1 145+1 147+1 14a+1 14c+1 14e+1 150+1 152+1 154+1",
  "156+1 158+1 15a+1 15c+1 15e+1 160+1 162+1 164+1 166+1 168+1 16a+1 16c+1 16e+1 170+1 172+1",
  "174+1 176+1 178~79 179+1 17b+1 17d+1 181+d2 182+1 184+1 186+ce 187+1 189-18a+cd 18b+1 18e+4f",
  "18f+ca 190+cb 191+1 193+cd 194+cf 196+d3 197+d1 198+1 19c+d3 19d+d5 19f+d6 1a0+1 1a2+1 1a4+1",
  "1a6+da 1a7+1 1a9+da 1ac+1 1ae+da 1af+1 1b1-1b2+d9 1b3+1 1b5+1 1b7+db 1b8+1 1bc+1 1c4+2 1c5+1",
  "1c7+2 1c8+1 1ca+2 1cb+1 1cd+1 1cf+1 1d1+1 1d3+1 1d5+1 1d7+1 1d9+1 1db+1 1de+1 1e0+1 1e2+1",
  "1e4+1 1e6+1 1e8+1 1ea+1 1ec+1 1ee+1 1f1+2 1f2+1 1f4+1 1f6~61 1f7~38 1f8+1 1fa+1 1fc+1 1fe+1",
  "200+1 202+1 204+1 206+1 208+1 20a+1 20c+1 20e+1 210+1 212+1 214+1 216+1 218+1 21a+1 21c+1",
  "21e+1 220~82 222+1 224+1 226+1 228+1 22a+1 22c+1 22e+1 230+1 232+1 23a+2a2b 23b+1 23d~a3",
  "23e+2a28 241+1 243~c3 244+45 245+47 246+1 248+1 24a+1 24c+1 24e+1 370+1 372+1 376+1 37f+74",
  "386+26 388-38a+25 38c+40 38e-38f+3f 391-3a1+20 3a3-3ab+20 3cf+8 3d8+1 3da+1 3dc+1 3de+1 3e0+1",
  "3e2+1 3e4+1 3e6+1 3e8+1 3ea+1 3ec+1 3ee+1 3f4~3c 3f7+1 3f9~7 3fa+1 3fd-3ff~82 400-40f+50",
  "410-42f+20 460+1 462+1 464+1 466+1 468+1 46a+1 46c+1 46e+1 470+1 472+1 474+1 476+1 478+1 47a+1",
  "47c+1 47e+1 480+1 48a+1 48c+1 48e+1 490+1 492+1 494+1 496+1 498+1 49a+1 49c+1 49e+1 4a0+1",
  "4a2+1 4a4+1 4a6+1 4a8+1 4aa+1 4ac+1 4ae+1 4b0+1 4b2+1 4b4+1 4b6+1 4b8+1 4ba+1 4bc+1 4be+1",
  "4c0+f 4c1+1 4c3+1 4c5+1 4c7+1 4c9+1 4cb+1 4cd+1 4d0+1 4d2+1 4d4+1 4d6+1 4d8+1 4da+1 4dc+1",
  "4de+1 4e0+1 4e2+1 4e4+1 4e6+1 4e8+1 4ea+1 4ec+1 4ee+1 4f0+1 4f2+1 4f4+1 4f6+1 4f8+1 4fa+1",
  "4fc+1 4fe+1 500+1 502+1 504+1 506+1 508+1 50a+1 50c+1 50e+1 510+1 512+1 514+1 516+1 518+1",
  "51a+1 51c+1 51e+1 520+1 522+1 524+1 526+1 528+1 52a+1 52c+1 52e+1 531-556+30 10a0-10c5+1c60",
  "10c7+1c60 10cd+1c60 13a0-13ef+97d0 13f0-13f5+8 1c89+1 1c90-1cba~bc0 1cbd-1cbf~bc0 1e00+1",
  "1e02+1 1e04+1 1e06+1 1e08+1 1e0a+1 1e0c+1 1e0e+1 1e10+1 1e12+1 1e14+1 1e16+1 1e18+1 1e1a+1",
  "1e1c+1 1e1e+1 1e20+1 1e22+1 1e24+1 1e26+1 1e28+1 1e2a+1 1e2c+1 1e2e+1 1e30+1 1e32+1 1e34+1",
  "1e36+1 1e38+1 1e3a+1 1e3c+1 1e3e+1 1e40+1 1e42+1 1e44+1 1e46+1 1e48+1 1e4a+1 1e4c+1 1e4e+1",
  "1e50+1 1e52+1 1e54+1 1e56+1 1e58+1 1e5a+1 1e5c+1 1e5e+1 1e60+1 1e62+1 1e64+1 1e66+1 1e68+1",
  "1e6a+1 1e6c+1 1e6e+1 1e70+1 1e72+1 1e74+1 1e76+1 1e78+1 1e7a+1 1e7c+1 1e7e+1 1e80+1 1e82+1",
  "1e84+1 1e86+1 1e88+1 1e8a+1 1e8c+1 1e8e+1 1e90+1 1e92+1 1e94+1 1e9e~1dbf 1ea0+1 1ea2+1 1ea4+1",
  "1ea6+1 1ea8+1 1eaa+1 1eac+1 1eae+1 1eb0+1 1eb2+1 1eb4+1 1eb6+1 1eb8+1 1eba+1 1ebc+1 1ebe+1",
  "1ec0+1 1ec2+1 1ec4+1 1ec6+1 1ec8+1 1eca+1 1ecc+1 1ece+1 1ed0+1 1ed2+1 1ed4+1 1ed6+1 1ed8+1",
  "1eda+1 1edc+1 1ede+1 1ee0+1 1ee2+1 1ee4+1 1ee6+1 1ee8+1 1eea+1 1eec+1 1eee+1 1ef0+1 1ef2+1",
  "1ef4+1 1ef6+1 1ef8+1 1efa+1 1efc+1 1efe+1 1f08-1f0f~8 1f18-1f1d~8 1f28-1f2f~8 1f38-1f3f~8",
  "1f48-1f4d~8 1f59~8 1f5b~8 1f5d~8 1f5f~8 1f68-1f6f~8 1f88-1f8f~8 1f98-1f9f~8 1fa8-1faf~8",
  "1fb8-1fb9~8 1fba-1fbb~4a 1fbc~9 1fc8-1fcb~56 1fcc~9 1fd8-1fd9~8 1fda-1fdb~64 1fe8-1fe9~8",
  "1fea-1feb~70 1fec~7 1ff8-1ff9~80 1ffa-1ffb~7e 1ffc~9 2126~1d5d 212a~20bf 212b~2046 2132+1c",
  "2160-216f+10 2183+1 24b6-24cf+1a 2c00-2c2f+30 2c60+1 2c62~29f7 2c63~ee6 2c64~29e7 2c67+1",
  "2c69+1 2c6b+1 2c6d~2a1c 2c6e~29fd 2c6f~2a1f 2c70~2a1e 2c72+1 2c75+1 2c7e-2c7f~2a3f 2c80+1",
  "2c82+1 2c84+1 2c86+1 2c88+1 2c8a+1 2c8c+1 2c8e+1 2c90+1 2c92+1 2c94+1 2c96+1 2c98+1 2c9a+1",
  "2c9c+1 2c9e+1 2ca0+1 2ca2+1 2ca4+1 2ca6+1 2ca8+1 2caa+1 2cac+1 2cae+1 2cb0+1 2cb2+1 2cb4+1",
  "2cb6+1 2cb8+1 2cba+1 2cbc+1 2cbe+1 2cc0+1 2cc2+1 2cc4+1 2cc6+1 2cc8+1 2cca+1 2ccc+1 2cce+1",
  "2cd0+1 2cd2+1 2cd4+1 2cd6+1 2cd8+1 2cda+1 2cdc+1 2cde+1 2ce0+1 2ce2+1 2ceb+1 2ced+1 2cf2+1",
  "a640+1 a642+1 a644+1 a646+1 a648+1 a64a+1 a64c+1 a64e+1 a650+1 a652+1 a654+1 a656+1 a658+1",
  "a65a+1 a65c+1 a65e+1 a660+1 a662+1 a664+1 a666+1 a668+1 a66a+1 a66c+1 a680+1 a682+1 a684+1",
  "a686+1 a688+1 a68a+1 a68c+1 a68e+1 a690+1 a692+1 a694+1 a696+1 a698+1 a69a+1 a722+1 a724+1",
  "a726+1 a728+1 a72a+1 a72c+1 a72e+1 a732+1 a734+1 a736+1 a738+1 a73a+1 a73c+1 a73e+1 a740+1",
  "a742+1 a744+1 a746+1 a748+1 a74a+1 a74c+1 a74e+1 a750+1 a752+1 a754+1 a756+1 a758+1 a75a+1",
  "a75c+1 a75e+1 a760+1 a762+1 a764+1 a766+1 a768+1 a76a+1 a76c+1 a76e+1 a779+1 a77b+1 a77d~8a04",
  "a77e+1 a780+1 a782+1 a784+1 a786+1 a78b+1 a78d~a528 a790+1 a792+1 a796+1 a798+1 a79a+1 a79c+1",
  "a79e+1 a7a0+1 a7a2+1 a7a4+1 a7a6+1 a7a8+1 a7aa~a544 a7ab~a54f a7ac~a54b a7ad~a541 a7ae~a544",
  "a7b0~a512 a7b1~a52a a7b2~a515 a7b3+3a0 a7b4+1 a7b6+1 a7b8+1 a7ba+1 a7bc+1 a7be+1 a7c0+1 a7c2+1",
  "a7c4~30 a7c5~a543 a7c6~8a38 a7c7+1 a7c9+1 a7cb~a567 a7cc+1 a7ce+1 a7d0+1 a7d2+1 a7d4+1 a7d6+1",
  "a7d8+1 a7da+1 a7dc~a641 a7f5+1 ff21-ff3a+20 10400-10427+28 104b0-104d3+28 10570-1057a+27",
  "1057c-1058a+27 1058c-10592+27 10594-10595+27 10c80-10cb2+40 10d50-10d65+20 118a0-118bf+20",
  "16e40-16e5f+20 16ea0-16eb8+1b 1e900-1e921+22"]

/-- Letters with a capital form elsewhere, and its distance. -/
def upperRows : List String := [
  "b5+2e7 e0-f6~20 f8-fe~20 ff+79 101~1 103~1 105~1 107~1 109~1 10b~1 10d~1 10f~1 111~1 113~1",
  "115~1 117~1 119~1 11b~1 11d~1 11f~1 121~1 123~1 125~1 127~1 129~1 12b~1 12d~1 12f~1 131~e8",
  "133~1 135~1 137~1 13a~1 13c~1 13e~1 140~1 142~1 144~1 146~1 148~1 14b~1 14d~1 14f~1 151~1",
  "153~1 155~1 157~1 159~1 15b~1 15d~1 15f~1 161~1 163~1 165~1 167~1 169~1 16b~1 16d~1 16f~1",
  "171~1 173~1 175~1 177~1 17a~1 17c~1 17e~1 17f~12c 180+c3 183~1 185~1 188~1 18c~1 192~1 195+61",
  "199~1 19a+a3 19b+a641 19e+82 1a1~1 1a3~1 1a5~1 1a8~1 1ad~1 1b0~1 1b4~1 1b6~1 1b9~1 1bd~1",
  "1bf+38 1c5~1 1c6~2 1c8~1 1c9~2 1cb~1 1cc~2 1ce~1 1d0~1 1d2~1 1d4~1 1d6~1 1d8~1 1da~1 1dc~1",
  "1dd~4f 1df~1 1e1~1 1e3~1 1e5~1 1e7~1 1e9~1 1eb~1 1ed~1 1ef~1 1f2~1 1f3~2 1f5~1 1f9~1 1fb~1",
  "1fd~1 1ff~1 201~1 203~1 205~1 207~1 209~1 20b~1 20d~1 20f~1 211~1 213~1 215~1 217~1 219~1",
  "21b~1 21d~1 21f~1 223~1 225~1 227~1 229~1 22b~1 22d~1 22f~1 231~1 233~1 23c~1 23f-240+2a3f",
  "242~1 247~1 249~1 24b~1 24d~1 24f~1 250+2a1f 251+2a1c 252+2a1e 253~d2 254~ce 256-257~cd 259~ca",
  "25b~cb 25c+a54f 260~cd 261+a54b 263~cf 264+a567 265+a528 266+a544 268~d1 269~d3 26a+a544",
  "26b+29f7 26c+a541 26f~d3 271+29fd 272~d5 275~d6 27d+29e7 280~da 282+a543 283~da 287+a52a",
  "288~da 289~45 28a-28b~d9 28c~47 292~db 29d+a515 29e+a512 345+54 371~1 373~1 377~1 37b-37d+82",
  "3ac~26 3ad-3af~25 3b1-3c1~20 3c2~1f 3c3-3cb~20 3cc~40 3cd-3ce~3f 3d0~3e 3d1~39 3d5~2f 3d6~36",
  "3d7~8 3d9~1 3db~1 3dd~1 3df~1 3e1~1 3e3~1 3e5~1 3e7~1 3e9~1 3eb~1 3ed~1 3ef~1 3f0~56 3f1~50",
  "3f2+7 3f3~74 3f5~60 3f8~1 3fb~1 430-44f~20 450-45f~50 461~1 463~1 465~1 467~1 469~1 46b~1",
  "46d~1 46f~1 471~1 473~1 475~1 477~1 479~1 47b~1 47d~1 47f~1 481~1 48b~1 48d~1 48f~1 491~1",
  "493~1 495~1 497~1 499~1 49b~1 49d~1 49f~1 4a1~1 4a3~1 4a5~1 4a7~1 4a9~1 4ab~1 4ad~1 4af~1",
  "4b1~1 4b3~1 4b5~1 4b7~1 4b9~1 4bb~1 4bd~1 4bf~1 4c2~1 4c4~1 4c6~1 4c8~1 4ca~1 4cc~1 4ce~1",
  "4cf~f 4d1~1 4d3~1 4d5~1 4d7~1 4d9~1 4db~1 4dd~1 4df~1 4e1~1 4e3~1 4e5~1 4e7~1 4e9~1 4eb~1",
  "4ed~1 4ef~1 4f1~1 4f3~1 4f5~1 4f7~1 4f9~1 4fb~1 4fd~1 4ff~1 501~1 503~1 505~1 507~1 509~1",
  "50b~1 50d~1 50f~1 511~1 513~1 515~1 517~1 519~1 51b~1 51d~1 51f~1 521~1 523~1 525~1 527~1",
  "529~1 52b~1 52d~1 52f~1 561-586~30 10d0-10fa+bc0 10fd-10ff+bc0 13f8-13fd~8 1c80~186e 1c81~186d",
  "1c82~1864 1c83-1c84~1862 1c85~1863 1c86~185c 1c87~1825 1c88+89c2 1c8a~1 1d79+8a04 1d7d+ee6",
  "1d8e+8a38 1e01~1 1e03~1 1e05~1 1e07~1 1e09~1 1e0b~1 1e0d~1 1e0f~1 1e11~1 1e13~1 1e15~1 1e17~1",
  "1e19~1 1e1b~1 1e1d~1 1e1f~1 1e21~1 1e23~1 1e25~1 1e27~1 1e29~1 1e2b~1 1e2d~1 1e2f~1 1e31~1",
  "1e33~1 1e35~1 1e37~1 1e39~1 1e3b~1 1e3d~1 1e3f~1 1e41~1 1e43~1 1e45~1 1e47~1 1e49~1 1e4b~1",
  "1e4d~1 1e4f~1 1e51~1 1e53~1 1e55~1 1e57~1 1e59~1 1e5b~1 1e5d~1 1e5f~1 1e61~1 1e63~1 1e65~1",
  "1e67~1 1e69~1 1e6b~1 1e6d~1 1e6f~1 1e71~1 1e73~1 1e75~1 1e77~1 1e79~1 1e7b~1 1e7d~1 1e7f~1",
  "1e81~1 1e83~1 1e85~1 1e87~1 1e89~1 1e8b~1 1e8d~1 1e8f~1 1e91~1 1e93~1 1e95~1 1e9b~3b 1ea1~1",
  "1ea3~1 1ea5~1 1ea7~1 1ea9~1 1eab~1 1ead~1 1eaf~1 1eb1~1 1eb3~1 1eb5~1 1eb7~1 1eb9~1 1ebb~1",
  "1ebd~1 1ebf~1 1ec1~1 1ec3~1 1ec5~1 1ec7~1 1ec9~1 1ecb~1 1ecd~1 1ecf~1 1ed1~1 1ed3~1 1ed5~1",
  "1ed7~1 1ed9~1 1edb~1 1edd~1 1edf~1 1ee1~1 1ee3~1 1ee5~1 1ee7~1 1ee9~1 1eeb~1 1eed~1 1eef~1",
  "1ef1~1 1ef3~1 1ef5~1 1ef7~1 1ef9~1 1efb~1 1efd~1 1eff~1 1f00-1f07+8 1f10-1f15+8 1f20-1f27+8",
  "1f30-1f37+8 1f40-1f45+8 1f51+8 1f53+8 1f55+8 1f57+8 1f60-1f67+8 1f70-1f71+4a 1f72-1f75+56",
  "1f76-1f77+64 1f78-1f79+80 1f7a-1f7b+70 1f7c-1f7d+7e 1f80-1f87+8 1f90-1f97+8 1fa0-1fa7+8",
  "1fb0-1fb1+8 1fb3+9 1fbe~1c25 1fc3+9 1fd0-1fd1+8 1fe0-1fe1+8 1fe5+7 1ff3+9 214e~1c 2170-217f~10",
  "2184~1 24d0-24e9~1a 2c30-2c5f~30 2c61~1 2c65~2a2b 2c66~2a28 2c68~1 2c6a~1 2c6c~1 2c73~1 2c76~1",
  "2c81~1 2c83~1 2c85~1 2c87~1 2c89~1 2c8b~1 2c8d~1 2c8f~1 2c91~1 2c93~1 2c95~1 2c97~1 2c99~1",
  "2c9b~1 2c9d~1 2c9f~1 2ca1~1 2ca3~1 2ca5~1 2ca7~1 2ca9~1 2cab~1 2cad~1 2caf~1 2cb1~1 2cb3~1",
  "2cb5~1 2cb7~1 2cb9~1 2cbb~1 2cbd~1 2cbf~1 2cc1~1 2cc3~1 2cc5~1 2cc7~1 2cc9~1 2ccb~1 2ccd~1",
  "2ccf~1 2cd1~1 2cd3~1 2cd5~1 2cd7~1 2cd9~1 2cdb~1 2cdd~1 2cdf~1 2ce1~1 2ce3~1 2cec~1 2cee~1",
  "2cf3~1 2d00-2d25~1c60 2d27~1c60 2d2d~1c60 a641~1 a643~1 a645~1 a647~1 a649~1 a64b~1 a64d~1",
  "a64f~1 a651~1 a653~1 a655~1 a657~1 a659~1 a65b~1 a65d~1 a65f~1 a661~1 a663~1 a665~1 a667~1",
  "a669~1 a66b~1 a66d~1 a681~1 a683~1 a685~1 a687~1 a689~1 a68b~1 a68d~1 a68f~1 a691~1 a693~1",
  "a695~1 a697~1 a699~1 a69b~1 a723~1 a725~1 a727~1 a729~1 a72b~1 a72d~1 a72f~1 a733~1 a735~1",
  "a737~1 a739~1 a73b~1 a73d~1 a73f~1 a741~1 a743~1 a745~1 a747~1 a749~1 a74b~1 a74d~1 a74f~1",
  "a751~1 a753~1 a755~1 a757~1 a759~1 a75b~1 a75d~1 a75f~1 a761~1 a763~1 a765~1 a767~1 a769~1",
  "a76b~1 a76d~1 a76f~1 a77a~1 a77c~1 a77f~1 a781~1 a783~1 a785~1 a787~1 a78c~1 a791~1 a793~1",
  "a794+30 a797~1 a799~1 a79b~1 a79d~1 a79f~1 a7a1~1 a7a3~1 a7a5~1 a7a7~1 a7a9~1 a7b5~1 a7b7~1",
  "a7b9~1 a7bb~1 a7bd~1 a7bf~1 a7c1~1 a7c3~1 a7c8~1 a7ca~1 a7cd~1 a7cf~1 a7d1~1 a7d3~1 a7d5~1",
  "a7d7~1 a7d9~1 a7db~1 a7f6~1 ab53~3a0 ab70-abbf~97d0 ff41-ff5a~20 10428-1044f~28 104d8-104fb~28",
  "10597-105a1~27 105a3-105b1~27 105b3-105b9~27 105bb-105bc~27 10cc0-10cf2~40 10d70-10d85~20",
  "118c0-118df~20 16e60-16e7f~20 16ebb-16ed3~1b 1e922-1e943~22"]

/-- The number that a distance such as `+20` or `~c7` stands for. -/
def distance : List Char → Int
  | '+' :: digits => (hexNumber digits : Int)
  | '~' :: digits => -(hexNumber digits : Int)
  | _ => 0

/-- A table of distances. -/
def distanceTable (rows : List String) : Array (Range × Int) :=
  (Range.assocOfRows (fun c => c == '+' || c == '~') rows).map fun (r, v) => (r, distance v)

/-- `lowerRows`, read once. -/
def lowerTable : Array (Range × Int) := distanceTable lowerRows

/-- `upperRows`, read once. -/
def upperTable : Array (Range × Int) := distanceTable upperRows

/-- The character moved by its distance in the table, if it has one. -/
def shift (table : Array (Range × Int)) (c : Char) : Char :=
  match Range.find? table c with
  | some d => Char.ofNat ((c.toNat : Int) + d).toNat
  | none => c

/-- The small form of a letter of any alphabet; other characters stay. -/
def toLower (c : Char) : Char := if c.toNat < 0x80 then lower c else shift lowerTable c

/-- The capital form of a letter of any alphabet; other characters stay. -/
def toUpper (c : Char) : Char := if c.toNat < 0x80 then upper c else shift upperTable c

/-- The text in small letters. -/
def lowerText (s : String) : String := String.ofList (s.toList.map toLower)

/-- The text in capital letters. -/
def upperText (s : String) : String := String.ofList (s.toList.map toUpper)

/-- The form in which names of fields are compared: small letters, where the long s and the
Kelvin sign count as the letters that they look like. -/
def foldCase (c : Char) : Char :=
  if c.toNat = 0x17F then 's' else if c.toNat = 0x212A then 'k' else lower c

/-- Two texts are equal up to the case of their ASCII letters. -/
def equalFold (a b : String) : Bool := a.toList.map foldCase == b.toList.map foldCase

theorem equalFold_iff {a b : String} :
    equalFold a b = true ↔ a.toList.map foldCase = b.toList.map foldCase := beq_iff_eq

@[simp] theorem equalFold_refl (a : String) : equalFold a a = true := equalFold_iff.2 rfl

end Text
end ApiDiagrams
