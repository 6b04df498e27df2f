import ComponentPreview.Unicode.Table

/-!
# Characters of domain labels

Small letters, letters without case, marks and decimal digits that no normalisation changes: what
may stand in a label of a domain name besides hyphens.
-/

namespace ComponentPreview

namespace Unicode

/-- Characters of labels from `U+0080` up to `U+1FFF`. -/
def labelBoundsBelow : Array Nat := #[
    223, 247, 248, 256, 257, 258, 259, 260, 261, 262, 263, 264, 265, 266, 267, 268, 269, 270, 271,
    272, 273, 274, 275, 276, 277, 278, 279, 280, 281, 282, 283, 284, 285, 286, 287, 288, 289, 290,
    291, 292, 293, 294, 295, 296, 297, 298, 299, 300, 301, 302, 303, 304, 305, 306, 309, 310, 311,
    313, 314, 315, 316, 317, 318, 319, 322, 323, 324, 325, 326, 327, 328, 329, 331, 332, 333, 334,
    335, 336, 337, 338, 339, 340, 341, 342, 343, 344, 345, 346, 347, 348, 349, 350, 351, 352, 353,
    354, 355, 356, 357, 358, 359, 360, 361, 362, 363, 364, 365, 366, 367, 368, 369, 370, 371, 372,
    373, 374, 375, 376, 378, 379, 380, 381, 382, 383, 384, 385, 387, 388, 389, 390, 392, 393, 396,
    398, 402, 403, 405, 406, 409, 412, 414, 415, 417, 418, 419, 420, 421, 422, 424, 425, 426, 428,
    429, 430, 432, 433, 436, 437, 438, 439, 441, 444, 445, 452, 462, 463, 464, 465, 466, 467, 468,
    469, 470, 471, 472, 473, 474, 475, 476, 478, 479, 480, 481, 482, 483, 484, 485, 486, 487, 488,
    489, 490, 491, 492, 493, 494, 495, 497, 501, 502, 505, 506, 507, 508, 509, 510, 511, 512, 513,
    514, 515, 516, 517, 518, 519, 520, 521, 522, 523, 524, 525, 526, 527, 528, 529, 530, 531, 532,
    533, 534, 535, 536, 537, 538, 539, 540, 541, 542, 543, 544, 545, 546, 547, 548, 549, 550, 551,
    552, 553, 554, 555, 556, 557, 558, 559, 560, 561, 562, 563, 570, 572, 573, 575, 577, 578, 579,
    583, 584, 585, 586, 587, 588, 589, 590, 591, 688, 697, 706, 710, 722, 748, 749, 750, 751, 768,
    832, 834, 835, 838, 847, 848, 880, 881, 882, 883, 884, 887, 888, 891, 894, 912, 913, 940, 975,
    983, 984, 985, 986, 987, 988, 989, 990, 991, 992, 993, 994, 995, 996, 997, 998, 999, 1000,
    1001, 1002, 1003, 1004, 1005, 1006, 1007, 1008, 1011, 1012, 1016, 1017, 1019, 1021, 1072,
    1120, 1121, 1122, 1123, 1124, 1125, 1126, 1127, 1128, 1129, 1130, 1131, 1132, 1133, 1134,
    1135, 1136, 1137, 1138, 1139, 1140, 1141, 1142, 1143, 1144, 1145, 1146, 1147, 1148, 1149,
    1150, 1151, 1152, 1153, 1154, 1155, 1160, 1163, 1164, 1165, 1166, 1167, 1168, 1169, 1170,
    1171, 1172, 1173, 1174, 1175, 1176, 1177, 1178, 1179, 1180, 1181, 1182, 1183, 1184, 1185,
    1186, 1187, 1188, 1189, 1190, 1191, 1192, 1193, 1194, 1195, 1196, 1197, 1198, 1199, 1200,
    1201, 1202, 1203, 1204, 1205, 1206, 1207, 1208, 1209, 1210, 1211, 1212, 1213, 1214, 1215,
    1216, 1218, 1219, 1220, 1221, 1222, 1223, 1224, 1225, 1226, 1227, 1228, 1229, 1230, 1232,
    1233, 1234, 1235, 1236, 1237, 1238, 1239, 1240, 1241, 1242, 1243, 1244, 1245, 1246, 1247,
    1248, 1249, 1250, 1251, 1252, 1253, 1254, 1255, 1256, 1257, 1258, 1259, 1260, 1261, 1262,
    1263, 1264, 1265, 1266, 1267, 1268, 1269, 1270, 1271, 1272, 1273, 1274, 1275, 1276, 1277,
    1278, 1279, 1280, 1281, 1282, 1283, 1284, 1285, 1286, 1287, 1288, 1289, 1290, 1291, 1292,
    1293, 1294, 1295, 1296, 1297, 1298, 1299, 1300, 1301, 1302, 1303, 1304, 1305, 1306, 1307,
    1308, 1309, 1310, 1311, 1312, 1313, 1314, 1315, 1316, 1317, 1318, 1319, 1320, 1321, 1322,
    1323, 1324, 1325, 1326, 1327, 1328, 1369, 1370, 1376, 1415, 1416, 1417, 1425, 1470, 1471,
    1472, 1473, 1475, 1476, 1478, 1479, 1480, 1488, 1515, 1519, 1523, 1552, 1563, 1568, 1600,
    1601, 1642, 1646, 1653, 1657, 1748, 1749, 1757, 1759, 1769, 1770, 1792, 1808, 1867, 1869,
    1970, 1984, 2038, 2045, 2046, 2048, 2094, 2112, 2140, 2144, 2155, 2160, 2184, 2185, 2191,
    2200, 2274, 2275, 2392, 2400, 2404, 2406, 2416, 2417, 2436, 2437, 2445, 2447, 2449, 2451,
    2473, 2474, 2481, 2482, 2483, 2486, 2490, 2492, 2501, 2503, 2505, 2507, 2511, 2519, 2520,
    2528, 2532, 2534, 2546, 2556, 2557, 2558, 2559, 2561, 2564, 2565, 2571, 2575, 2577, 2579,
    2601, 2602, 2609, 2610, 2611, 2613, 2614, 2616, 2618, 2620, 2621, 2622, 2627, 2631, 2633,
    2635, 2638, 2641, 2642, 2652, 2653, 2662, 2678, 2689, 2692, 2693, 2702, 2703, 2706, 2707,
    2729, 2730, 2737, 2738, 2740, 2741, 2746, 2748, 2758, 2759, 2762, 2763, 2766, 2768, 2769,
    2784, 2788, 2790, 2800, 2809, 2816, 2817, 2820, 2821, 2829, 2831, 2833, 2835, 2857, 2858,
    2865, 2866, 2868, 2869, 2874, 2876, 2885, 2887, 2889, 2891, 2894, 2901, 2904, 2911, 2916,
    2918, 2928, 2929, 2930, 2946, 2948, 2949, 2955, 2958, 2961, 2962, 2966, 2969, 2971, 2972,
    2973, 2974, 2976, 2979, 2981, 2984, 2987, 2990, 3002, 3006, 3011, 3014, 3017, 3018, 3022,
    3024, 3025, 3031, 3032, 3046, 3056, 3072, 3085, 3086, 3089, 3090, 3113, 3114, 3130, 3132,
    3141, 3142, 3145, 3146, 3150, 3157, 3159, 3160, 3163, 3165, 3166, 3168, 3172, 3174, 3184,
    3200, 3204, 3205, 3213, 3214, 3217, 3218, 3241, 3242, 3252, 3253, 3258, 3260, 3269, 3270,
    3273, 3274, 3278, 3285, 3287, 3293, 3295, 3296, 3300, 3302, 3312, 3313, 3315, 3328, 3341,
    3342, 3345, 3346, 3397, 3398, 3401, 3402, 3407, 3412, 3416, 3423, 3428, 3430, 3440, 3450,
    3456, 3457, 3460, 3461, 3479, 3482, 3506, 3507, 3516, 3517, 3518, 3520, 3527, 3530, 3531,
    3535, 3541, 3542, 3543, 3544, 3552, 3558, 3568, 3570, 3572, 3585, 3635, 3636, 3643, 3648,
    3663, 3664, 3674, 3713, 3715, 3716, 3717, 3718, 3723, 3724, 3748, 3749, 3750, 3751, 3763,
    3764, 3774, 3776, 3781, 3782, 3783, 3784, 3790, 3792, 3802, 3806, 3808, 3840, 3841, 3851,
    3852, 3864, 3866, 3872, 3882, 3893, 3894, 3895, 3896, 3897, 3898, 3902, 3907, 3908, 3912,
    3913, 3917, 3918, 3922, 3923, 3927, 3928, 3932, 3933, 3945, 3946, 3949, 3953, 3955, 3956,
    3957, 3962, 3969, 3970, 3973, 3974, 3987, 3988, 3992, 3993, 3997, 3998, 4002, 4003, 4007,
    4008, 4012, 4013, 4025, 4026, 4029, 4038, 4039, 4096, 4170, 4176, 4254, 4304, 4347, 4349,
    4352, 4608, 4681, 4682, 4686, 4688, 4695, 4696, 4697, 4698, 4702, 4704, 4745, 4746, 4750,
    4752, 4785, 4786, 4790, 4792, 4799, 4800, 4801, 4802, 4806, 4808, 4823, 4824, 4881, 4882,
    4886, 4888, 4955, 4957, 4960, 4992, 5008, 5024, 5110, 5121, 5741, 5743, 5760, 5761, 5787,
    5792, 5867, 5873, 5881, 5888, 5910, 5919, 5941, 5952, 5972, 5984, 5997, 5998, 6001, 6002,
    6004, 6016, 6068, 6070, 6100, 6103, 6104, 6108, 6110, 6112, 6122, 6160, 6170, 6176, 6265,
    6272, 6315, 6320, 6390, 6400, 6431, 6432, 6444, 6448, 6460, 6470, 6510, 6512, 6517, 6528,
    6572, 6576, 6602, 6608, 6618, 6656, 6684, 6688, 6751, 6752, 6781, 6783, 6794, 6800, 6810,
    6823, 6824, 6832, 6846, 6847, 6863, 6912, 6989, 6992, 7002, 7019, 7028, 7040, 7156, 7168,
    7224, 7232, 7242, 7245, 7294, 7376, 7379, 7380, 7419, 7424, 7468, 7471, 7472, 7483, 7484,
    7502, 7503, 7531, 7544, 7545, 7579, 7616, 7680, 7681, 7682, 7683, 7684, 7685, 7686, 7687,
    7688, 7689, 7690, 7691, 7692, 7693, 7694, 7695, 7696, 7697, 7698, 7699, 7700, 7701, 7702,
    7703, 7704, 7705, 7706, 7707, 7708, 7709, 7710, 7711, 7712, 7713, 7714, 7715, 7716, 7717,
    7718, 7719, 7720, 7721, 7722, 7723, 7724, 7725, 7726, 7727, 7728, 7729, 7730, 7731, 7732,
    7733, 7734, 7735, 7736, 7737, 7738, 7739, 7740, 7741, 7742, 7743, 7744, 7745, 7746, 7747,
    7748, 7749, 7750, 7751, 7752, 7753, 7754, 7755, 7756, 7757, 7758, 7759, 7760, 7761, 7762,
    7763, 7764, 7765, 7766, 7767, 7768, 7769, 7770, 7771, 7772, 7773, 7774, 7775, 7776, 7777,
    7778, 7779, 7780, 7781, 7782, 7783, 7784, 7785, 7786, 7787, 7788, 7789, 7790, 7791, 7792,
    7793, 7794, 7795, 7796, 7797, 7798, 7799, 7800, 7801, 7802, 7803, 7804, 7805, 7806, 7807,
    7808, 7809, 7810, 7811, 7812, 7813, 7814, 7815, 7816, 7817, 7818, 7819, 7820, 7821, 7822,
    7823, 7824, 7825, 7826, 7827, 7828, 7829, 7834, 7836, 7838, 7839, 7840, 7841, 7842, 7843,
    7844, 7845, 7846, 7847, 7848, 7849, 7850, 7851, 7852, 7853, 7854, 7855, 7856, 7857, 7858,
    7859, 7860, 7861, 7862, 7863, 7864, 7865, 7866, 7867, 7868, 7869, 7870, 7871, 7872, 7873,
    7874, 7875, 7876, 7877, 7878, 7879, 7880, 7881, 7882, 7883, 7884, 7885, 7886, 7887, 7888,
    7889, 7890, 7891, 7892, 7893, 7894, 7895, 7896, 7897, 7898, 7899, 7900, 7901, 7902, 7903,
    7904, 7905, 7906, 7907, 7908, 7909, 7910, 7911, 7912, 7913, 7914, 7915, 7916, 7917, 7918,
    7919, 7920, 7921, 7922, 7923, 7924, 7925, 7926, 7927, 7928, 7929, 7930, 7931, 7932, 7933,
    7934, 7935, 7944, 7952, 7958, 7968, 7976, 7984, 7992, 8000, 8006, 8016, 8024, 8032, 8040,
    8048, 8049, 8050, 8051, 8052, 8053, 8054, 8055, 8056, 8057, 8058, 8059, 8060, 8061, 8112,
    8114, 8118, 8119, 8134, 8135, 8144, 8147, 8150, 8152, 8160, 8163, 8164, 8168, 8182, 8183
  ]

/-- Characters of labels from `U+2000` on. -/
def labelBoundsAbove : Array Nat := #[
    8526, 8527, 8580, 8581, 11312, 11360, 11361, 11362, 11365, 11367, 11368, 11369, 11370, 11371,
    11372, 11373, 11377, 11378, 11379, 11381, 11382, 11388, 11393, 11394, 11395, 11396, 11397,
    11398, 11399, 11400, 11401, 11402, 11403, 11404, 11405, 11406, 11407, 11408, 11409, 11410,
    11411, 11412, 11413, 11414, 11415, 11416, 11417, 11418, 11419, 11420, 11421, 11422, 11423,
    11424, 11425, 11426, 11427, 11428, 11429, 11430, 11431, 11432, 11433, 11434, 11435, 11436,
    11437, 11438, 11439, 11440, 11441, 11442, 11443, 11444, 11445, 11446, 11447, 11448, 11449,
    11450, 11451, 11452, 11453, 11454, 11455, 11456, 11457, 11458, 11459, 11460, 11461, 11462,
    11463, 11464, 11465, 11466, 11467, 11468, 11469, 11470, 11471, 11472, 11473, 11474, 11475,
    11476, 11477, 11478, 11479, 11480, 11481, 11482, 11483, 11484, 11485, 11486, 11487, 11488,
    11489, 11490, 11491, 11493, 11500, 11501, 11502, 11506, 11507, 11508, 11520, 11558, 11559,
    11560, 11565, 11566, 11568, 11624, 11647, 11671, 11680, 11687, 11688, 11695, 11696, 11703,
    11704, 11711, 11712, 11719, 11720, 11727, 11728, 11735, 11736, 11743, 11744, 11776, 11823,
    11824, 12293, 12296, 12330, 12334, 12348, 12349, 12353, 12439, 12441, 12443, 12445, 12447,
    12449, 12539, 12540, 12543, 12549, 12592, 12704, 12736, 12784, 12800, 13312, 19904, 19968,
    42125, 42192, 42238, 42240, 42509, 42512, 42540, 42561, 42562, 42563, 42564, 42565, 42566,
    42567, 42568, 42569, 42570, 42571, 42572, 42573, 42574, 42575, 42576, 42577, 42578, 42579,
    42580, 42581, 42582, 42583, 42584, 42585, 42586, 42587, 42588, 42589, 42590, 42591, 42592,
    42593, 42594, 42595, 42596, 42597, 42598, 42599, 42600, 42601, 42602, 42603, 42604, 42605,
    42608, 42612, 42622, 42623, 42624, 42625, 42626, 42627, 42628, 42629, 42630, 42631, 42632,
    42633, 42634, 42635, 42636, 42637, 42638, 42639, 42640, 42641, 42642, 42643, 42644, 42645,
    42646, 42647, 42648, 42649, 42650, 42651, 42652, 42654, 42726, 42736, 42738, 42775, 42784,
    42787, 42788, 42789, 42790, 42791, 42792, 42793, 42794, 42795, 42796, 42797, 42798, 42799,
    42802, 42803, 42804, 42805, 42806, 42807, 42808, 42809, 42810, 42811, 42812, 42813, 42814,
    42815, 42816, 42817, 42818, 42819, 42820, 42821, 42822, 42823, 42824, 42825, 42826, 42827,
    42828, 42829, 42830, 42831, 42832, 42833, 42834, 42835, 42836, 42837, 42838, 42839, 42840,
    42841, 42842, 42843, 42844, 42845, 42846, 42847, 42848, 42849, 42850, 42851, 42852, 42853,
    42854, 42855, 42856, 42857, 42858, 42859, 42860, 42861, 42862, 42863, 42864, 42865, 42873,
    42874, 42875, 42876, 42877, 42879, 42880, 42881, 42882, 42883, 42884, 42885, 42886, 42887,
    42889, 42892, 42893, 42894, 42896, 42897, 42898, 42899, 42902, 42903, 42904, 42905, 42906,
    42907, 42908, 42909, 42910, 42911, 42912, 42913, 42914, 42915, 42916, 42917, 42918, 42919,
    42920, 42921, 42922, 42927, 42928, 42933, 42934, 42935, 42936, 42937, 42938, 42939, 42940,
    42941, 42942, 42943, 42944, 42945, 42946, 42947, 42948, 42952, 42953, 42954, 42955, 42961,
    42962, 42963, 42964, 42965, 42966, 42967, 42968, 42969, 42970, 42998, 43000, 43002, 43048,
    43052, 43053, 43072, 43124, 43136, 43206, 43216, 43226, 43232, 43256, 43259, 43260, 43261,
    43310, 43312, 43348, 43392, 43457, 43471, 43482, 43488, 43519, 43520, 43575, 43584, 43598,
    43600, 43610, 43616, 43639, 43642, 43715, 43739, 43742, 43744, 43760, 43762, 43767, 43777,
    43783, 43785, 43791, 43793, 43799, 43808, 43815, 43816, 43823, 43824, 43867, 43872, 43881,
    43968, 44011, 44012, 44014, 44016, 44026, 44032, 55204, 64014, 64016, 64017, 64018, 64019,
    64021, 64031, 64032, 64033, 64034, 64035, 64037, 64039, 64042, 64286, 64287, 65056, 65072,
    65139, 65140, 65536, 65548, 65549, 65575, 65576, 65595, 65596, 65598, 65599, 65614, 65616,
    65630, 65664, 65787, 66045, 66046, 66176, 66205, 66208, 66257, 66272, 66273, 66304, 66336,
    66349, 66369, 66370, 66378, 66384, 66427, 66432, 66462, 66464, 66500, 66504, 66512, 66600,
    66718, 66720, 66730, 66776, 66812, 66816, 66856, 66864, 66916, 66967, 66978, 66979, 66994,
    66995, 67002, 67003, 67005, 67072, 67383, 67392, 67414, 67424, 67432, 67456, 67457, 67584,
    67590, 67592, 67593, 67594, 67638, 67639, 67641, 67644, 67645, 67647, 67670, 67680, 67703,
    67712, 67743, 67808, 67827, 67828, 67830, 67840, 67862, 67872, 67898, 67968, 68024, 68030,
    68032, 68096, 68100, 68101, 68103, 68108, 68116, 68117, 68120, 68121, 68150, 68152, 68155,
    68159, 68160, 68192, 68221, 68224, 68253, 68288, 68296, 68297, 68327, 68352, 68406, 68416,
    68438, 68448, 68467, 68480, 68498, 68608, 68681, 68800, 68851, 68864, 68904, 68912, 68922,
    69248, 69290, 69291, 69293, 69296, 69298, 69376, 69405, 69415, 69416, 69424, 69457, 69488,
    69510, 69552, 69573, 69600, 69623, 69632, 69703, 69734, 69750, 69759, 69819, 69826, 69827,
    69840, 69865, 69872, 69882, 69888, 69941, 69942, 69952, 69956, 69960, 69968, 70004, 70006,
    70007, 70016, 70085, 70089, 70093, 70094, 70107, 70108, 70109, 70144, 70162, 70163, 70200,
    70206, 70207, 70272, 70279, 70280, 70281, 70282, 70286, 70287, 70302, 70303, 70313, 70320,
    70379, 70384, 70394, 70400, 70404, 70405, 70413, 70415, 70417, 70419, 70441, 70442, 70449,
    70450, 70452, 70453, 70458, 70459, 70469, 70471, 70473, 70475, 70478, 70480, 70481, 70487,
    70488, 70493, 70500, 70502, 70509, 70512, 70517, 70656, 70731, 70736, 70746, 70750, 70754,
    70784, 70854, 70855, 70856, 70864, 70874, 71040, 71094, 71096, 71105, 71128, 71134, 71168,
    71233, 71236, 71237, 71248, 71258, 71296, 71353, 71360, 71370, 71424, 71451, 71453, 71468,
    71472, 71482, 71488, 71495, 71680, 71739, 71872, 71914, 71935, 71943, 71945, 71946, 71948,
    71956, 71957, 71959, 71960, 71990, 71991, 71993, 71995, 72004, 72016, 72026, 72096, 72104,
    72106, 72152, 72154, 72162, 72163, 72165, 72192, 72255, 72263, 72264, 72272, 72346, 72349,
    72350, 72368, 72441, 72704, 72713, 72714, 72759, 72760, 72769, 72784, 72794, 72818, 72848,
    72850, 72872, 72873, 72887, 72960, 72967, 72968, 72970, 72971, 73015, 73018, 73019, 73020,
    73022, 73023, 73032, 73040, 73050, 73056, 73062, 73063, 73065, 73066, 73103, 73104, 73106,
    73107, 73113, 73120, 73130, 73440, 73463, 73648, 73649, 73728, 74650, 74880, 75076, 77712,
    77809, 77824, 78895, 82944, 83527, 92160, 92729, 92736, 92767, 92768, 92778, 92784, 92863,
    92864, 92874, 92880, 92910, 92912, 92917, 92928, 92983, 92992, 92996, 93008, 93018, 93027,
    93048, 93053, 93072, 93792, 93824, 93952, 94027, 94031, 94088, 94095, 94112, 94176, 94178,
    94179, 94181, 94192, 94194, 94208, 100344, 100352, 101590, 101632, 101641, 110576, 110580,
    110581, 110588, 110589, 110591, 110592, 110883, 110928, 110931, 110948, 110952, 110960,
    111356, 113664, 113771, 113776, 113789, 113792, 113801, 113808, 113818, 113821, 113823,
    118528, 118574, 118576, 118599, 121344, 121399, 121403, 121453, 121461, 121462, 121476,
    121477, 121499, 121504, 121505, 121520, 122624, 122655, 122880, 122887, 122888, 122905,
    122907, 122914, 122915, 122917, 122918, 122923, 123136, 123181, 123184, 123198, 123200,
    123210, 123214, 123215, 123536, 123567, 123584, 123642, 124896, 124903, 124904, 124908,
    124909, 124911, 124912, 124927, 124928, 125125, 125136, 125143, 125218, 125260, 125264,
    125274, 131072, 173792, 173824, 177977, 177984, 178206, 178208, 183970, 183984, 191457,
    196608, 201547
  ]

end Unicode

def isLabelChar (c : Char) : Bool :=
  let n := c.toNat
  if n < 128 then c.isLower || c.isDigit || c == '-'
  else if n < 0x2000 then Unicode.inBounds Unicode.labelBoundsBelow n
  else Unicode.inBounds Unicode.labelBoundsAbove n

end ComponentPreview
