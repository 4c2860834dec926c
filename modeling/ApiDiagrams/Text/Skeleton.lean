import ApiDiagrams.Text.Ranges

/-!
# The ASCII skeleton of a text

A title becomes an identifier through its skeleton: every character is decomposed by Unicode's
compatibility decomposition, nonspacing marks are dropped, and what is then no letter, digit or
underscore of ASCII shows as an underscore. Letters come out small.

The table lists the characters outside ASCII whose skeleton is not a single underscore. The
syllables of Hangul decompose by a rule, into two letters or three.
-/

namespace ApiDiagrams
namespace Text

/-- Characters whose skeleton is something else than one underscore. -/
def skeletonRows : List String := [
  "aa:a b2:2 b3:3 b9:1 ba:o bc:1_4 bd:1_2 be:3_4 c0-c5:a c7:c c8-cb:e cc-cf:i d1:n d2-d6:o",
  "d9-dc:u dd:y e0-e5:a e7:c e8-eb:e ec-ef:i f1:n f2-f6:o f9-fc:u fd:y ff:y 100-105:a 106-10d:c",
  "10e-10f:d 112-11b:e 11c-123:g 124-125:h 128-130:i 132-133:ij 134-135:j 136-137:k 139-13e:l",
  "13f-140:l_ 143-148:n 149:_n 14c-151:o 154-159:r 15a-161:s 162-165:t 168-173:u 174-175:w",
  "176-178:y 179-17e:z 17f:s 1a0-1a1:o 1af-1b0:u 1c4-1c6:dz 1c7-1c9:lj 1ca-1cc:nj 1cd-1ce:a",
  "1cf-1d0:i 1d1-1d2:o 1d3-1dc:u 1de-1e1:a 1e6-1e7:g 1e8-1e9:k 1ea-1ed:o 1f0:j 1f1-1f3:dz",
  "1f4-1f5:g 1f8-1f9:n 1fa-1fb:a 200-203:a 204-207:e 208-20b:i 20c-20f:o 210-213:r 214-217:u",
  "218-219:s 21a-21b:t 21e-21f:h 226-227:a 228-229:e 22a-231:o 232-233:y 2b0:h 2b2:j 2b3:r 2b7:w",
  "2b8:y 2e1:l 2e2:s 2e3:x 300-36f: 483-487: 587:__ 591-5bd: 5bf: 5c1-5c2: 5c4-5c5: 5c7: 610-61a:",
  "64b-65f: 670: 675-678:__ 6d6-6dc: 6df-6e4: 6e7-6e8: 6ea-6ed: 711: 730-74a: 7a6-7b0: 7eb-7f3:",
  "7fd: 816-819: 81b-823: 825-827: 829-82d: 859-85b: 897-89f: 8ca-8e1: 8e3-902: 93a: 93c:",
  "941-948: 94d: 951-957: 962-963: 981: 9bc: 9c1-9c4: 9cb-9cc:__ 9cd: 9e2-9e3: 9fe: a01-a02: a3c:",
  "a41-a42: a47-a48: a4b-a4d: a51: a70-a71: a75: a81-a82: abc: ac1-ac5: ac7-ac8: acd: ae2-ae3:",
  "afa-aff: b01: b3c: b3f: b41-b44: b4b-b4c:__ b4d: b55-b56: b62-b63: b82: b94:__ bc0: bca-bcc:__",
  "bcd: c00: c04: c3c: c3e-c40: c46-c48: c4a-c4d: c55-c56: c62-c63: c81: cbc: cbf: cc6: ccb:__",
  "ccc-ccd: ce2-ce3: d00-d01: d3b-d3c: d41-d44: d4a-d4c:__ d4d: d62-d63: d81: dca: dd2-dd4: dd6:",
  "ddc-dde:__ e31: e34-e3a: e47-e4e: eb1: eb4-ebc: ec8-ece: edc-edd:__ f18-f19: f35: f37: f39:",
  "f71-f7e: f80-f84: f86-f87: f8d-f97: f99-fbc: fc6: 102d-1030: 1032-1037: 1039-103a: 103d-103e:",
  "1058-1059: 105e-1060: 1071-1074: 1082: 1085-1086: 108d: 109d: 135d-135f: 1712-1714: 1732-1733:",
  "1752-1753: 1772-1773: 17b4-17b5: 17b7-17bd: 17c6: 17c9-17d3: 17dd: 180b-180d: 180f: 1885-1886:",
  "18a9: 1920-1922: 1927-1928: 1932: 1939-193b: 1a17-1a18: 1a1b: 1a56: 1a58-1a5e: 1a60: 1a62:",
  "1a65-1a6c: 1a73-1a7c: 1a7f: 1ab0-1abd: 1abf-1add: 1ae0-1aeb: 1b00-1b03: 1b06:__ 1b08:__",
  "1b0a:__ 1b0c:__ 1b0e:__ 1b12:__ 1b34: 1b36-1b3a: 1b3c: 1b40-1b41:__ 1b42: 1b6b-1b73:",
  "1b80-1b81: 1ba2-1ba5: 1ba8-1ba9: 1bab-1bad: 1be6: 1be8-1be9: 1bed: 1bef-1bf1: 1c2c-1c33:",
  "1c36-1c37: 1cd0-1cd2: 1cd4-1ce0: 1ce2-1ce8: 1ced: 1cf4: 1cf8-1cf9: 1d2c:a 1d2e:b 1d30:d 1d31:e",
  "1d33:g 1d34:h 1d35:i 1d36:j 1d37:k 1d38:l 1d39:m 1d3a:n 1d3c:o 1d3e:p 1d3f:r 1d40:t 1d41:u",
  "1d42:w 1d43:a 1d47:b 1d48:d 1d49:e 1d4d:g 1d4f:k 1d50:m 1d52:o 1d56:p 1d57:t 1d58:u 1d5b:v",
  "1d62:i 1d63:r 1d64:u 1d65:v 1d9c:c 1da0:f 1dbb:z 1dc0-1dff: 1e00-1e01:a 1e02-1e07:b",
  "1e08-1e09:c 1e0a-1e13:d 1e14-1e1d:e 1e1e-1e1f:f 1e20-1e21:g 1e22-1e2b:h 1e2c-1e2f:i",
  "1e30-1e35:k 1e36-1e3d:l 1e3e-1e43:m 1e44-1e4b:n 1e4c-1e53:o 1e54-1e57:p 1e58-1e5f:r",
  "1e60-1e69:s 1e6a-1e71:t 1e72-1e7b:u 1e7c-1e7f:v 1e80-1e89:w 1e8a-1e8d:x 1e8e-1e8f:y",
  "1e90-1e95:z 1e96:h 1e97:t 1e98:w 1e99:y 1e9a:a_ 1e9b:s 1ea0-1eb7:a 1eb8-1ec7:e 1ec8-1ecb:i",
  "1ecc-1ee3:o 1ee4-1ef1:u 1ef2-1ef9:y 2025:__ 2026:___ 2033:__ 2034:___ 2036:__ 2037:___ 203c:__",
  "2047-2049:__ 2057:____ 2070:0 2071:i 2074:4 2075:5 2076:6 2077:7 2078:8 2079:9 207f:n 2080:0",
  "2081:1 2082:2 2083:3 2084:4 2085:5 2086:6 2087:7 2088:8 2089:9 2090:a 2091:e 2092:o 2093:x",
  "2095:h 2096:k 2097:l 2098:m 2099:n 209a:p 209b:s 209c:t 20a8:rs 20d0-20dc: 20e1: 20e5-20f0:",
  "2100:a_c 2101:a_s 2102:c 2103:_c 2105:c_o 2106:c_u 2109:_f 210a:g 210b-210e:h 2110-2111:i",
  "2112-2113:l 2115:n 2116:no 2119:p 211a:q 211b-211d:r 2120:sm 2121:tel 2122:tm 2124:z 2128:z",
  "212a:k 212b:a 212c:b 212d:c 212f-2130:e 2131:f 2133:m 2134:o 2139:i 213b:fax 2145-2146:d",
  "2147:e 2148:i 2149:j 2150:1_7 2151:1_9 2152:1_10 2153:1_3 2154:2_3 2155:1_5 2156:2_5 2157:3_5",
  "2158:4_5 2159:1_6 215a:5_6 215b:1_8 215c:3_8 215d:5_8 215e:7_8 215f:1_ 2160:i 2161:ii 2162:iii",
  "2163:iv 2164:v 2165:vi 2166:vii 2167:viii 2168:ix 2169:x 216a:xi 216b:xii 216c:l 216d:c 216e:d",
  "216f:m 2170:i 2171:ii 2172:iii 2173:iv 2174:v 2175:vi 2176:vii 2177:viii 2178:ix 2179:x",
  "217a:xi 217b:xii 217c:l 217d:c 217e:d 217f:m 2189:0_3 222c:__ 222d:___ 222f:__ 2230:___ 2460:1",
  "2461:2 2462:3 2463:4 2464:5 2465:6 2466:7 2467:8 2468:9 2469:10 246a:11 246b:12 246c:13",
  "246d:14 246e:15 246f:16 2470:17 2471:18 2472:19 2473:20 2474:_1_ 2475:_2_ 2476:_3_ 2477:_4_",
  "2478:_5_ 2479:_6_ 247a:_7_ 247b:_8_ 247c:_9_ 247d:_10_ 247e:_11_ 247f:_12_ 2480:_13_ 2481:_14_",
  "2482:_15_ 2483:_16_ 2484:_17_ 2485:_18_ 2486:_19_ 2487:_20_ 2488:1_ 2489:2_ 248a:3_ 248b:4_",
  "248c:5_ 248d:6_ 248e:7_ 248f:8_ 2490:9_ 2491:10_ 2492:11_ 2493:12_ 2494:13_ 2495:14_ 2496:15_",
  "2497:16_ 2498:17_ 2499:18_ 249a:19_ 249b:20_ 249c:_a_ 249d:_b_ 249e:_c_ 249f:_d_ 24a0:_e_",
  "24a1:_f_ 24a2:_g_ 24a3:_h_ 24a4:_i_ 24a5:_j_ 24a6:_k_ 24a7:_l_ 24a8:_m_ 24a9:_n_ 24aa:_o_",
  "24ab:_p_ 24ac:_q_ 24ad:_r_ 24ae:_s_ 24af:_t_ 24b0:_u_ 24b1:_v_ 24b2:_w_ 24b3:_x_ 24b4:_y_",
  "24b5:_z_ 24b6:a 24b7:b 24b8:c 24b9:d 24ba:e 24bb:f 24bc:g 24bd:h 24be:i 24bf:j 24c0:k 24c1:l",
  "24c2:m 24c3:n 24c4:o 24c5:p 24c6:q 24c7:r 24c8:s 24c9:t 24ca:u 24cb:v 24cc:w 24cd:x 24ce:y",
  "24cf:z 24d0:a 24d1:b 24d2:c 24d3:d 24d4:e 24d5:f 24d6:g 24d7:h 24d8:i 24d9:j 24da:k 24db:l",
  "24dc:m 24dd:n 24de:o 24df:p 24e0:q 24e1:r 24e2:s 24e3:t 24e4:u 24e5:v 24e6:w 24e7:x 24e8:y",
  "24e9:z 24ea:0 2a0c:____ 2a74:___ 2a75:__ 2a76:___ 2c7c:j 2c7d:v 2cef-2cf1: 2d7f: 2de0-2dff:",
  "302a-302d: 3099-309a: 309f:__ 30ff:__ 3200-320d:___ 320e-321c:____ 321d:_______ 321e:______",
  "3220-3243:___ 3250:pte 3251:21 3252:22 3253:23 3254:24 3255:25 3256:26 3257:27 3258:28 3259:29",
  "325a:30 325b:31 325c:32 325d:33 325e:34 325f:35 326e-327b:__ 327c:_____ 327d:____ 327e:__",
  "32b1:36 32b2:37 32b3:38 32b4:39 32b5:40 32b6:41 32b7:42 32b8:43 32b9:44 32ba:45 32bb:46",
  "32bc:47 32bd:48 32be:49 32bf:50 32c0:1_ 32c1:2_ 32c2:3_ 32c3:4_ 32c4:5_ 32c5:6_ 32c6:7_",
  "32c7:8_ 32c8:9_ 32c9:10_ 32ca:11_ 32cb:12_ 32cc:hg 32cd:erg 32ce:ev 32cf:ltd 32ff:__",
  "3300-3302:____ 3303:___ 3304:____ 3305-3306:___ 3307:_____ 3308:____ 3309-330b:___",
  "330c-330d:____ 330e-330f:___ 3310:__ 3311:___ 3312-3313:____ 3314:__ 3315:_____ 3316:______",
  "3317:_____ 3318:___ 3319-331a:_____ 331b:____ 331c-331e:___ 331f:____ 3320:_____ 3321:____",
  "3322-3324:___ 3325-3328:__ 3329-332a:___ 332b:_____ 332c:___ 332d:____ 332e:_____ 332f:___",
  "3330-3331:__ 3332:_____ 3333:____ 3334:_____ 3335:___ 3336:_____ 3337:__ 3338-333c:___",
  "333d:____ 333e:___ 333f:__ 3340-3342:___ 3343:____ 3344-3346:___ 3347:_____ 3348:____ 3349:__",
  "334a:_____ 334b:__ 334c-334d:____ 334e-3350:___ 3351:____ 3352:__ 3353:___ 3354:____ 3355:__",
  "3356:_____ 3357:___ 3358:0_ 3359:1_ 335a:2_ 335b:3_ 335c:4_ 335d:5_ 335e:6_ 335f:7_ 3360:8_",
  "3361:9_ 3362:10_ 3363:11_ 3364:12_ 3365:13_ 3366:14_ 3367:15_ 3368:16_ 3369:17_ 336a:18_",
  "336b:19_ 336c:20_ 336d:21_ 336e:22_ 336f:23_ 3370:24_ 3371:hpa 3372:da 3373:au 3374:bar",
  "3375:ov 3376:pc 3377:dm 3378:dm2 3379:dm3 337a:iu 337b-337e:__ 337f:____ 3380:pa 3381:na",
  "3382:_a 3383:ma 3384:ka 3385:kb 3386:mb 3387:gb 3388:cal 3389:kcal 338a:pf 338b:nf 338c:_f",
  "338d:_g 338e:mg 338f:kg 3390:hz 3391:khz 3392:mhz 3393:ghz 3394:thz 3395:_l 3396:ml 3397:dl",
  "3398:kl 3399:fm 339a:nm 339b:_m 339c:mm 339d:cm 339e:km 339f:mm2 33a0:cm2 33a1:m2 33a2:km2",
  "33a3:mm3 33a4:cm3 33a5:m3 33a6:km3 33a7:m_s 33a8:m_s2 33a9:pa 33aa:kpa 33ab:mpa 33ac:gpa",
  "33ad:rad 33ae:rad_s 33af:rad_s2 33b0:ps 33b1:ns 33b2:_s 33b3:ms 33b4:pv 33b5:nv 33b6:_v",
  "33b7:mv 33b8:kv 33b9:mv 33ba:pw 33bb:nw 33bc:_w 33bd:mw 33be:kw 33bf:mw 33c0:k_ 33c1:m_",
  "33c2:a_m_ 33c3:bq 33c4:cc 33c5:cd 33c6:c_kg 33c7:co_ 33c8:db 33c9:gy 33ca:ha 33cb:hp 33cc:in",
  "33cd:kk 33ce:km 33cf:kt 33d0:lm 33d1:ln 33d2:log 33d3:lx 33d4:mb 33d5:mil 33d6:mol 33d7:ph",
  "33d8:p_m_ 33d9:ppm 33da:pr 33db:sr 33dc:sv 33dd:wb 33de:v_m 33df:a_m 33e0:1_ 33e1:2_ 33e2:3_",
  "33e3:4_ 33e4:5_ 33e5:6_ 33e6:7_ 33e7:8_ 33e8:9_ 33e9:10_ 33ea:11_ 33eb:12_ 33ec:13_ 33ed:14_",
  "33ee:15_ 33ef:16_ 33f0:17_ 33f1:18_ 33f2:19_ 33f3:20_ 33f4:21_ 33f5:22_ 33f6:23_ 33f7:24_",
  "33f8:25_ 33f9:26_ 33fa:27_ 33fb:28_ 33fc:29_ 33fd:30_ 33fe:31_ 33ff:gal a66f: a674-a67d:",
  "a69e-a69f: a6f0-a6f1: a7f2:c a7f3:f a7f4:q a802: a806: a80b: a825-a826: a82c: a8c4-a8c5:",
  "a8e0-a8f1: a8ff: a926-a92d: a947-a951: a980-a982: a9b3: a9b6-a9b9: a9bc-a9bd: a9e5: aa29-aa2e:",
  "aa31-aa32: aa35-aa36: aa43: aa4c: aa7c: aab0: aab2-aab4: aab7-aab8: aabe-aabf: aac1:",
  "aaec-aaed: aaf6: abe5: abe8: abed: fb00:ff fb01:fi fb02:fl fb03:ffi fb04:ffl fb05-fb06:st",
  "fb13-fb17:__ fb1e: fb4f:__ fbdd:__ fbea-fbfb:__ fc00-fc5a:__ fc64-fc8f:__ fc91-fcd8:__",
  "fcda-fcf1:__ fcf5-fd3b:__ fd50-fd8f:___ fd92-fdc7:___ fdf0-fdf1:___ fdf2-fdf8:____ fdf9:___",
  "fdfa:__________________ fdfb:________ fdfc:____ fe00-fe0f: fe19:___ fe20-fe2f: fe30:__",
  "fef5-fefc:__ ff10:0 ff11:1 ff12:2 ff13:3 ff14:4 ff15:5 ff16:6 ff17:7 ff18:8 ff19:9 ff21:a",
  "ff22:b ff23:c ff24:d ff25:e ff26:f ff27:g ff28:h ff29:i ff2a:j ff2b:k ff2c:l ff2d:m ff2e:n",
  "ff2f:o ff30:p ff31:q ff32:r ff33:s ff34:t ff35:u ff36:v ff37:w ff38:x ff39:y ff3a:z ff41:a",
  "ff42:b ff43:c ff44:d ff45:e ff46:f ff47:g ff48:h ff49:i ff4a:j ff4b:k ff4c:l ff4d:m ff4e:n",
  "ff4f:o ff50:p ff51:q ff52:r ff53:s ff54:t ff55:u ff56:v ff57:w ff58:x ff59:y ff5a:z ff9e-ff9f:",
  "101fd: 102e0: 10376-1037a: 107a5:q 10a01-10a03: 10a05-10a06: 10a0c-10a0f: 10a38-10a3a: 10a3f:",
  "10ae5-10ae6: 10d24-10d27: 10d69-10d6d: 10eab-10eac: 10efa-10eff: 10f46-10f50: 10f82-10f85:",
  "11001: 11038-11046: 11070: 11073-11074: 1107f-11081: 110b3-110b6: 110b9-110ba: 110c2:",
  "11100-11102: 11127-1112b: 1112d-11134: 11173: 11180-11181: 111b6-111be: 111c9-111cc: 111cf:",
  "1122f-11231: 11234: 11236-11237: 1123e: 11241: 112df: 112e3-112ea: 11300-11301: 1133b-1133c:",
  "11340: 1134b-1134c:__ 11366-1136c: 11370-11374: 113bb-113c0: 113ce: 113d0: 113d2: 113e1-113e2:",
  "11438-1143f: 11442-11444: 11446: 1145e: 114b3-114b8: 114ba: 114bc:__ 114be:__ 114bf-114c0:",
  "114c2-114c3: 115b2-115b5: 115ba-115bb:__ 115bc-115bd: 115bf-115c0: 115dc-115dd: 11633-1163a:",
  "1163d: 1163f-11640: 116ab: 116ad: 116b0-116b5: 116b7: 1171d: 1171f: 11722-11725: 11727-1172b:",
  "1182f-11837: 11839-1183a: 11938:__ 1193b-1193c: 1193e: 11943: 119d4-119d7: 119da-119db: 119e0:",
  "11a01-11a0a: 11a33-11a38: 11a3b-11a3e: 11a47: 11a51-11a56: 11a59-11a5b: 11a8a-11a96:",
  "11a98-11a99: 11b60: 11b62-11b64: 11b66: 11c30-11c36: 11c38-11c3d: 11c3f: 11c92-11ca7:",
  "11caa-11cb0: 11cb2-11cb3: 11cb5-11cb6: 11d31-11d36: 11d3a: 11d3c-11d3d: 11d3f-11d45: 11d47:",
  "11d90-11d91: 11d95: 11d97: 11ef3-11ef4: 11f00-11f01: 11f36-11f3a: 11f40: 11f42: 11f5a: 13440:",
  "13447-13455: 1611e-16129: 1612d-1612f: 16af0-16af4: 16b30-16b36: 16f4f: 16f8f-16f92: 16fe4:",
  "1bc9d-1bc9e: 1cf00-1cf2d: 1cf30-1cf46: 1d15e-1d15f:__ 1d160-1d164:___ 1d167-1d169:",
  "1d17b-1d182: 1d185-1d18b: 1d1aa-1d1ad: 1d1bb-1d1bc:__ 1d1bd-1d1c0:___ 1d242-1d244: 1d400:a",
  "1d401:b 1d402:c 1d403:d 1d404:e 1d405:f 1d406:g 1d407:h 1d408:i 1d409:j 1d40a:k 1d40b:l",
  "1d40c:m 1d40d:n 1d40e:o 1d40f:p 1d410:q 1d411:r 1d412:s 1d413:t 1d414:u 1d415:v 1d416:w",
  "1d417:x 1d418:y 1d419:z 1d41a:a 1d41b:b 1d41c:c 1d41d:d 1d41e:e 1d41f:f 1d420:g 1d421:h",
  "1d422:i 1d423:j 1d424:k 1d425:l 1d426:m 1d427:n 1d428:o 1d429:p 1d42a:q 1d42b:r 1d42c:s",
  "1d42d:t 1d42e:u 1d42f:v 1d430:w 1d431:x 1d432:y 1d433:z 1d434:a 1d435:b 1d436:c 1d437:d",
  "1d438:e 1d439:f 1d43a:g 1d43b:h 1d43c:i 1d43d:j 1d43e:k 1d43f:l 1d440:m 1d441:n 1d442:o",
  "1d443:p 1d444:q 1d445:r 1d446:s 1d447:t 1d448:u 1d449:v 1d44a:w 1d44b:x 1d44c:y 1d44d:z",
  "1d44e:a 1d44f:b 1d450:c 1d451:d 1d452:e 1d453:f 1d454:g 1d456:i 1d457:j 1d458:k 1d459:l",
  "1d45a:m 1d45b:n 1d45c:o 1d45d:p 1d45e:q 1d45f:r 1d460:s 1d461:t 1d462:u 1d463:v 1d464:w",
  "1d465:x 1d466:y 1d467:z 1d468:a 1d469:b 1d46a:c 1d46b:d 1d46c:e 1d46d:f 1d46e:g 1d46f:h",
  "1d470:i 1d471:j 1d472:k 1d473:l 1d474:m 1d475:n 1d476:o 1d477:p 1d478:q 1d479:r 1d47a:s",
  "1d47b:t 1d47c:u 1d47d:v 1d47e:w 1d47f:x 1d480:y 1d481:z 1d482:a 1d483:b 1d484:c 1d485:d",
  "1d486:e 1d487:f 1d488:g 1d489:h 1d48a:i 1d48b:j 1d48c:k 1d48d:l 1d48e:m 1d48f:n 1d490:o",
  "1d491:p 1d492:q 1d493:r 1d494:s 1d495:t 1d496:u 1d497:v 1d498:w 1d499:x 1d49a:y 1d49b:z",
  "1d49c:a 1d49e:c 1d49f:d 1d4a2:g 1d4a5:j 1d4a6:k 1d4a9:n 1d4aa:o 1d4ab:p 1d4ac:q 1d4ae:s",
  "1d4af:t 1d4b0:u 1d4b1:v 1d4b2:w 1d4b3:x 1d4b4:y 1d4b5:z 1d4b6:a 1d4b7:b 1d4b8:c 1d4b9:d",
  "1d4bb:f 1d4bd:h 1d4be:i 1d4bf:j 1d4c0:k 1d4c1:l 1d4c2:m 1d4c3:n 1d4c5:p 1d4c6:q 1d4c7:r",
  "1d4c8:s 1d4c9:t 1d4ca:u 1d4cb:v 1d4cc:w 1d4cd:x 1d4ce:y 1d4cf:z 1d4d0:a 1d4d1:b 1d4d2:c",
  "1d4d3:d 1d4d4:e 1d4d5:f 1d4d6:g 1d4d7:h 1d4d8:i 1d4d9:j 1d4da:k 1d4db:l 1d4dc:m 1d4dd:n",
  "1d4de:o 1d4df:p 1d4e0:q 1d4e1:r 1d4e2:s 1d4e3:t 1d4e4:u 1d4e5:v 1d4e6:w 1d4e7:x 1d4e8:y",
  "1d4e9:z 1d4ea:a 1d4eb:b 1d4ec:c 1d4ed:d 1d4ee:e 1d4ef:f 1d4f0:g 1d4f1:h 1d4f2:i 1d4f3:j",
  "1d4f4:k 1d4f5:l 1d4f6:m 1d4f7:n 1d4f8:o 1d4f9:p 1d4fa:q 1d4fb:r 1d4fc:s 1d4fd:t 1d4fe:u",
  "1d4ff:v 1d500:w 1d501:x 1d502:y 1d503:z 1d504:a 1d505:b 1d507:d 1d508:e 1d509:f 1d50a:g",
  "1d50d:j 1d50e:k 1d50f:l 1d510:m 1d511:n 1d512:o 1d513:p 1d514:q 1d516:s 1d517:t 1d518:u",
  "1d519:v 1d51a:w 1d51b:x 1d51c:y 1d51e:a 1d51f:b 1d520:c 1d521:d 1d522:e 1d523:f 1d524:g",
  "1d525:h 1d526:i 1d527:j 1d528:k 1d529:l 1d52a:m 1d52b:n 1d52c:o 1d52d:p 1d52e:q 1d52f:r",
  "1d530:s 1d531:t 1d532:u 1d533:v 1d534:w 1d535:x 1d536:y 1d537:z 1d538:a 1d539:b 1d53b:d",
  "1d53c:e 1d53d:f 1d53e:g 1d540:i 1d541:j 1d542:k 1d543:l 1d544:m 1d546:o 1d54a:s 1d54b:t",
  "1d54c:u 1d54d:v 1d54e:w 1d54f:x 1d550:y 1d552:a 1d553:b 1d554:c 1d555:d 1d556:e 1d557:f",
  "1d558:g 1d559:h 1d55a:i 1d55b:j 1d55c:k 1d55d:l 1d55e:m 1d55f:n 1d560:o 1d561:p 1d562:q",
  "1d563:r 1d564:s 1d565:t 1d566:u 1d567:v 1d568:w 1d569:x 1d56a:y 1d56b:z 1d56c:a 1d56d:b",
  "1d56e:c 1d56f:d 1d570:e 1d571:f 1d572:g 1d573:h 1d574:i 1d575:j 1d576:k 1d577:l 1d578:m",
  "1d579:n 1d57a:o 1d57b:p 1d57c:q 1d57d:r 1d57e:s 1d57f:t 1d580:u 1d581:v 1d582:w 1d583:x",
  "1d584:y 1d585:z 1d586:a 1d587:b 1d588:c 1d589:d 1d58a:e 1d58b:f 1d58c:g 1d58d:h 1d58e:i",
  "1d58f:j 1d590:k 1d591:l 1d592:m 1d593:n 1d594:o 1d595:p 1d596:q 1d597:r 1d598:s 1d599:t",
  "1d59a:u 1d59b:v 1d59c:w 1d59d:x 1d59e:y 1d59f:z 1d5a0:a 1d5a1:b 1d5a2:c 1d5a3:d 1d5a4:e",
  "1d5a5:f 1d5a6:g 1d5a7:h 1d5a8:i 1d5a9:j 1d5aa:k 1d5ab:l 1d5ac:m 1d5ad:n 1d5ae:o 1d5af:p",
  "1d5b0:q 1d5b1:r 1d5b2:s 1d5b3:t 1d5b4:u 1d5b5:v 1d5b6:w 1d5b7:x 1d5b8:y 1d5b9:z 1d5ba:a",
  "1d5bb:b 1d5bc:c 1d5bd:d 1d5be:e 1d5bf:f 1d5c0:g 1d5c1:h 1d5c2:i 1d5c3:j 1d5c4:k 1d5c5:l",
  "1d5c6:m 1d5c7:n 1d5c8:o 1d5c9:p 1d5ca:q 1d5cb:r 1d5cc:s 1d5cd:t 1d5ce:u 1d5cf:v 1d5d0:w",
  "1d5d1:x 1d5d2:y 1d5d3:z 1d5d4:a 1d5d5:b 1d5d6:c 1d5d7:d 1d5d8:e 1d5d9:f 1d5da:g 1d5db:h",
  "1d5dc:i 1d5dd:j 1d5de:k 1d5df:l 1d5e0:m 1d5e1:n 1d5e2:o 1d5e3:p 1d5e4:q 1d5e5:r 1d5e6:s",
  "1d5e7:t 1d5e8:u 1d5e9:v 1d5ea:w 1d5eb:x 1d5ec:y 1d5ed:z 1d5ee:a 1d5ef:b 1d5f0:c 1d5f1:d",
  "1d5f2:e 1d5f3:f 1d5f4:g 1d5f5:h 1d5f6:i 1d5f7:j 1d5f8:k 1d5f9:l 1d5fa:m 1d5fb:n 1d5fc:o",
  "1d5fd:p 1d5fe:q 1d5ff:r 1d600:s 1d601:t 1d602:u 1d603:v 1d604:w 1d605:x 1d606:y 1d607:z",
  "1d608:a 1d609:b 1d60a:c 1d60b:d 1d60c:e 1d60d:f 1d60e:g 1d60f:h 1d610:i 1d611:j 1d612:k",
  "1d613:l 1d614:m 1d615:n 1d616:o 1d617:p 1d618:q 1d619:r 1d61a:s 1d61b:t 1d61c:u 1d61d:v",
  "1d61e:w 1d61f:x 1d620:y 1d621:z 1d622:a 1d623:b 1d624:c 1d625:d 1d626:e 1d627:f 1d628:g",
  "1d629:h 1d62a:i 1d62b:j 1d62c:k 1d62d:l 1d62e:m 1d62f:n 1d630:o 1d631:p 1d632:q 1d633:r",
  "1d634:s 1d635:t 1d636:u 1d637:v 1d638:w 1d639:x 1d63a:y 1d63b:z 1d63c:a 1d63d:b 1d63e:c",
  "1d63f:d 1d640:e 1d641:f 1d642:g 1d643:h 1d644:i 1d645:j 1d646:k 1d647:l 1d648:m 1d649:n",
  "1d64a:o 1d64b:p 1d64c:q 1d64d:r 1d64e:s 1d64f:t 1d650:u 1d651:v 1d652:w 1d653:x 1d654:y",
  "1d655:z 1d656:a 1d657:b 1d658:c 1d659:d 1d65a:e 1d65b:f 1d65c:g 1d65d:h 1d65e:i 1d65f:j",
  "1d660:k 1d661:l 1d662:m 1d663:n 1d664:o 1d665:p 1d666:q 1d667:r 1d668:s 1d669:t 1d66a:u",
  "1d66b:v 1d66c:w 1d66d:x 1d66e:y 1d66f:z 1d670:a 1d671:b 1d672:c 1d673:d 1d674:e 1d675:f",
  "1d676:g 1d677:h 1d678:i 1d679:j 1d67a:k 1d67b:l 1d67c:m 1d67d:n 1d67e:o 1d67f:p 1d680:q",
  "1d681:r 1d682:s 1d683:t 1d684:u 1d685:v 1d686:w 1d687:x 1d688:y 1d689:z 1d68a:a 1d68b:b",
  "1d68c:c 1d68d:d 1d68e:e 1d68f:f 1d690:g 1d691:h 1d692:i 1d693:j 1d694:k 1d695:l 1d696:m",
  "1d697:n 1d698:o 1d699:p 1d69a:q 1d69b:r 1d69c:s 1d69d:t 1d69e:u 1d69f:v 1d6a0:w 1d6a1:x",
  "1d6a2:y 1d6a3:z 1d7ce:0 1d7cf:1 1d7d0:2 1d7d1:3 1d7d2:4 1d7d3:5 1d7d4:6 1d7d5:7 1d7d6:8",
  "1d7d7:9 1d7d8:0 1d7d9:1 1d7da:2 1d7db:3 1d7dc:4 1d7dd:5 1d7de:6 1d7df:7 1d7e0:8 1d7e1:9",
  "1d7e2:0 1d7e3:1 1d7e4:2 1d7e5:3 1d7e6:4 1d7e7:5 1d7e8:6 1d7e9:7 1d7ea:8 1d7eb:9 1d7ec:0",
  "1d7ed:1 1d7ee:2 1d7ef:3 1d7f0:4 1d7f1:5 1d7f2:6 1d7f3:7 1d7f4:8 1d7f5:9 1d7f6:0 1d7f7:1",
  "1d7f8:2 1d7f9:3 1d7fa:4 1d7fb:5 1d7fc:6 1d7fd:7 1d7fe:8 1d7ff:9 1da00-1da36: 1da3b-1da6c:",
  "1da75: 1da84: 1da9b-1da9f: 1daa1-1daaf: 1e000-1e006: 1e008-1e018: 1e01b-1e021: 1e023-1e024:",
  "1e026-1e02a: 1e08f: 1e130-1e136: 1e2ae: 1e2ec-1e2ef: 1e4ec-1e4ef: 1e5ee-1e5ef: 1e6e3: 1e6e6:",
  "1e6ee-1e6ef: 1e6f5: 1e8d0-1e8d6: 1e944-1e94a: 1f100-1f101:0_ 1f102:1_ 1f103:2_ 1f104:3_",
  "1f105:4_ 1f106:5_ 1f107:6_ 1f108:7_ 1f109:8_ 1f10a:9_ 1f110:_a_ 1f111:_b_ 1f112:_c_ 1f113:_d_",
  "1f114:_e_ 1f115:_f_ 1f116:_g_ 1f117:_h_ 1f118:_i_ 1f119:_j_ 1f11a:_k_ 1f11b:_l_ 1f11c:_m_",
  "1f11d:_n_ 1f11e:_o_ 1f11f:_p_ 1f120:_q_ 1f121:_r_ 1f122:_s_ 1f123:_t_ 1f124:_u_ 1f125:_v_",
  "1f126:_w_ 1f127:_x_ 1f128:_y_ 1f129:_z_ 1f12a:_s_ 1f12b:c 1f12c:r 1f12d:cd 1f12e:wz 1f130:a",
  "1f131:b 1f132:c 1f133:d 1f134:e 1f135:f 1f136:g 1f137:h 1f138:i 1f139:j 1f13a:k 1f13b:l",
  "1f13c:m 1f13d:n 1f13e:o 1f13f:p 1f140:q 1f141:r 1f142:s 1f143:t 1f144:u 1f145:v 1f146:w",
  "1f147:x 1f148:y 1f149:z 1f14a:hv 1f14b:mv 1f14c:sd 1f14d:ss 1f14e:ppv 1f14f:wc 1f16a:mc",
  "1f16b:md 1f16c:mr 1f190:dj 1f200-1f201:__ 1f240-1f248:___ 1fbf0:0 1fbf1:1 1fbf2:2 1fbf3:3",
  "1fbf4:4 1fbf5:5 1fbf6:6 1fbf7:7 1fbf8:8 1fbf9:9 e0100-e01ef:"]

/-- `skeletonRows`, read once. -/
def skeletonTable : Array (Range × List Char) :=
  (Range.assocOfRows (· == ':') skeletonRows).map fun (r, v) => (r, v.drop 1)

/-- The skeleton of one character. -/
def skeletonOf (c : Char) : List Char :=
  if c.toNat < 0x80 then [if isWord c then lower c else '_']
  else if 0xAC00 ≤ c.toNat && c.toNat ≤ 0xD7A3 then
    if (c.toNat - 0xAC00) % 28 = 0 then ['_', '_'] else ['_', '_', '_']
  else (Range.find? skeletonTable c).getD ['_']

/-- The skeleton of a text. -/
def skeleton (text : List Char) : List Char := text.flatMap skeletonOf

end Text
end ApiDiagrams
