namespace PixelScript.Text.Casing

/-- A run of `count` letters that each have one capital and one small form, `step` code points apart. -/
structure Block where
  capital : Nat
  small : Nat
  count : Nat
  step : Nat

/-- The letters whose two forms map to each other. -/
def blocks : List Block := [
  ⟨65, 97, 26, 1⟩, ⟨192, 224, 23, 1⟩, ⟨216, 248, 7, 1⟩, ⟨256, 257, 24, 2⟩, ⟨306, 307, 3, 2⟩,
  ⟨313, 314, 8, 2⟩, ⟨330, 331, 23, 2⟩, ⟨376, 255, 1, 1⟩, ⟨377, 378, 3, 2⟩, ⟨385, 595, 1, 1⟩,
  ⟨386, 387, 2, 2⟩, ⟨390, 596, 1, 1⟩, ⟨391, 392, 1, 1⟩, ⟨393, 598, 2, 1⟩, ⟨395, 396, 1, 1⟩,
  ⟨398, 477, 1, 1⟩, ⟨399, 601, 1, 1⟩, ⟨400, 603, 1, 1⟩, ⟨401, 402, 1, 1⟩, ⟨403, 608, 1, 1⟩,
  ⟨404, 611, 1, 1⟩, ⟨406, 617, 1, 1⟩, ⟨407, 616, 1, 1⟩, ⟨408, 409, 1, 1⟩, ⟨412, 623, 1, 1⟩,
  ⟨413, 626, 1, 1⟩, ⟨415, 629, 1, 1⟩, ⟨416, 417, 3, 2⟩, ⟨422, 640, 1, 1⟩, ⟨423, 424, 1, 1⟩,
  ⟨425, 643, 1, 1⟩, ⟨428, 429, 1, 1⟩, ⟨430, 648, 1, 1⟩, ⟨431, 432, 1, 1⟩, ⟨433, 650, 2, 1⟩,
  ⟨435, 436, 2, 2⟩, ⟨439, 658, 1, 1⟩, ⟨440, 441, 1, 1⟩, ⟨444, 445, 1, 1⟩, ⟨452, 454, 1, 1⟩,
  ⟨455, 457, 1, 1⟩, ⟨458, 460, 1, 1⟩, ⟨461, 462, 8, 2⟩, ⟨478, 479, 9, 2⟩, ⟨497, 499, 1, 1⟩,
  ⟨500, 501, 1, 1⟩, ⟨502, 405, 1, 1⟩, ⟨503, 447, 1, 1⟩, ⟨504, 505, 20, 2⟩, ⟨544, 414, 1, 1⟩,
  ⟨546, 547, 9, 2⟩, ⟨570, 11365, 1, 1⟩, ⟨571, 572, 1, 1⟩, ⟨573, 410, 1, 1⟩, ⟨574, 11366, 1, 1⟩,
  ⟨577, 578, 1, 1⟩, ⟨579, 384, 1, 1⟩, ⟨580, 649, 1, 1⟩, ⟨581, 652, 1, 1⟩, ⟨582, 583, 5, 2⟩,
  ⟨880, 881, 2, 2⟩, ⟨886, 887, 1, 1⟩, ⟨895, 1011, 1, 1⟩, ⟨902, 940, 1, 1⟩, ⟨904, 941, 3, 1⟩,
  ⟨908, 972, 1, 1⟩, ⟨910, 973, 2, 1⟩, ⟨913, 945, 17, 1⟩, ⟨931, 963, 9, 1⟩, ⟨975, 983, 1, 1⟩,
  ⟨984, 985, 12, 2⟩, ⟨1015, 1016, 1, 1⟩, ⟨1017, 1010, 1, 1⟩, ⟨1018, 1019, 1, 1⟩,
  ⟨1021, 891, 3, 1⟩, ⟨1024, 1104, 16, 1⟩, ⟨1040, 1072, 32, 1⟩, ⟨1120, 1121, 17, 2⟩,
  ⟨1162, 1163, 27, 2⟩, ⟨1216, 1231, 1, 1⟩, ⟨1217, 1218, 7, 2⟩, ⟨1232, 1233, 48, 2⟩,
  ⟨1329, 1377, 38, 1⟩, ⟨4256, 11520, 38, 1⟩, ⟨4295, 11559, 1, 1⟩, ⟨4301, 11565, 1, 1⟩,
  ⟨5024, 43888, 80, 1⟩, ⟨5104, 5112, 6, 1⟩, ⟨7305, 7306, 1, 1⟩, ⟨7312, 4304, 43, 1⟩,
  ⟨7357, 4349, 3, 1⟩, ⟨7680, 7681, 75, 2⟩, ⟨7840, 7841, 48, 2⟩, ⟨7944, 7936, 8, 1⟩,
  ⟨7960, 7952, 6, 1⟩, ⟨7976, 7968, 8, 1⟩, ⟨7992, 7984, 8, 1⟩, ⟨8008, 8000, 6, 1⟩,
  ⟨8025, 8017, 4, 2⟩, ⟨8040, 8032, 8, 1⟩, ⟨8120, 8112, 2, 1⟩, ⟨8122, 8048, 2, 1⟩,
  ⟨8136, 8050, 4, 1⟩, ⟨8152, 8144, 2, 1⟩, ⟨8154, 8054, 2, 1⟩, ⟨8168, 8160, 2, 1⟩,
  ⟨8170, 8058, 2, 1⟩, ⟨8172, 8165, 1, 1⟩, ⟨8184, 8056, 2, 1⟩, ⟨8186, 8060, 2, 1⟩,
  ⟨8498, 8526, 1, 1⟩, ⟨8544, 8560, 16, 1⟩, ⟨8579, 8580, 1, 1⟩, ⟨9398, 9424, 26, 1⟩,
  ⟨11264, 11312, 48, 1⟩, ⟨11360, 11361, 1, 1⟩, ⟨11362, 619, 1, 1⟩, ⟨11363, 7549, 1, 1⟩,
  ⟨11364, 637, 1, 1⟩, ⟨11367, 11368, 3, 2⟩, ⟨11373, 593, 1, 1⟩, ⟨11374, 625, 1, 1⟩,
  ⟨11375, 592, 1, 1⟩, ⟨11376, 594, 1, 1⟩, ⟨11378, 11379, 1, 1⟩, ⟨11381, 11382, 1, 1⟩,
  ⟨11390, 575, 2, 1⟩, ⟨11392, 11393, 50, 2⟩, ⟨11499, 11500, 2, 2⟩, ⟨11506, 11507, 1, 1⟩,
  ⟨42560, 42561, 23, 2⟩, ⟨42624, 42625, 14, 2⟩, ⟨42786, 42787, 7, 2⟩, ⟨42802, 42803, 31, 2⟩,
  ⟨42873, 42874, 2, 2⟩, ⟨42877, 7545, 1, 1⟩, ⟨42878, 42879, 5, 2⟩, ⟨42891, 42892, 1, 1⟩,
  ⟨42893, 613, 1, 1⟩, ⟨42896, 42897, 2, 2⟩, ⟨42902, 42903, 10, 2⟩, ⟨42922, 614, 1, 1⟩,
  ⟨42923, 604, 1, 1⟩, ⟨42924, 609, 1, 1⟩, ⟨42925, 620, 1, 1⟩, ⟨42926, 618, 1, 1⟩,
  ⟨42928, 670, 1, 1⟩, ⟨42929, 647, 1, 1⟩, ⟨42930, 669, 1, 1⟩, ⟨42931, 43859, 1, 1⟩,
  ⟨42932, 42933, 8, 2⟩, ⟨42948, 42900, 1, 1⟩, ⟨42949, 642, 1, 1⟩, ⟨42950, 7566, 1, 1⟩,
  ⟨42951, 42952, 2, 2⟩, ⟨42955, 612, 1, 1⟩, ⟨42956, 42957, 8, 2⟩, ⟨42972, 411, 1, 1⟩,
  ⟨42997, 42998, 1, 1⟩, ⟨65313, 65345, 26, 1⟩, ⟨66560, 66600, 40, 1⟩, ⟨66736, 66776, 36, 1⟩,
  ⟨66928, 66967, 19, 2⟩, ⟨66929, 66968, 5, 2⟩, ⟨66941, 66980, 7, 2⟩, ⟨66957, 66996, 3, 2⟩,
  ⟨66965, 67004, 1, 1⟩, ⟨68736, 68800, 51, 1⟩, ⟨68944, 68976, 22, 1⟩, ⟨71840, 71872, 32, 1⟩,
  ⟨93760, 93792, 32, 1⟩, ⟨93856, 93883, 25, 1⟩, ⟨125184, 125218, 34, 1⟩]

/-- Characters with a capital form that does not map back: its code points. -/
def raised : List (Nat × List Nat) := [
  (181, [924]), (223, [83, 83]), (305, [73]), (329, [700, 78]), (383, [83]), (453, [452]),
  (456, [455]), (459, [458]), (496, [74, 780]), (498, [497]), (837, [921]),
  (912, [921, 776, 769]), (944, [933, 776, 769]), (962, [931]), (976, [914]), (977, [920]),
  (981, [934]), (982, [928]), (1008, [922]), (1009, [929]), (1013, [917]),
  (1415, [1333, 1362]), (7296, [1042]), (7297, [1044]), (7298, [1054]), (7299, [1057]),
  (7300, [1058]), (7301, [1058]), (7302, [1066]), (7303, [1122]), (7304, [42570]),
  (7830, [72, 817]), (7831, [84, 776]), (7832, [87, 778]), (7833, [89, 778]),
  (7834, [65, 702]), (7835, [7776]), (8016, [933, 787]), (8018, [933, 787, 768]),
  (8020, [933, 787, 769]), (8022, [933, 787, 834]), (8064, [7944, 921]), (8065, [7945, 921]),
  (8066, [7946, 921]), (8067, [7947, 921]), (8068, [7948, 921]), (8069, [7949, 921]),
  (8070, [7950, 921]), (8071, [7951, 921]), (8072, [7944, 921]), (8073, [7945, 921]),
  (8074, [7946, 921]), (8075, [7947, 921]), (8076, [7948, 921]), (8077, [7949, 921]),
  (8078, [7950, 921]), (8079, [7951, 921]), (8080, [7976, 921]), (8081, [7977, 921]),
  (8082, [7978, 921]), (8083, [7979, 921]), (8084, [7980, 921]), (8085, [7981, 921]),
  (8086, [7982, 921]), (8087, [7983, 921]), (8088, [7976, 921]), (8089, [7977, 921]),
  (8090, [7978, 921]), (8091, [7979, 921]), (8092, [7980, 921]), (8093, [7981, 921]),
  (8094, [7982, 921]), (8095, [7983, 921]), (8096, [8040, 921]), (8097, [8041, 921]),
  (8098, [8042, 921]), (8099, [8043, 921]), (8100, [8044, 921]), (8101, [8045, 921]),
  (8102, [8046, 921]), (8103, [8047, 921]), (8104, [8040, 921]), (8105, [8041, 921]),
  (8106, [8042, 921]), (8107, [8043, 921]), (8108, [8044, 921]), (8109, [8045, 921]),
  (8110, [8046, 921]), (8111, [8047, 921]), (8114, [8122, 921]), (8115, [913, 921]),
  (8116, [902, 921]), (8118, [913, 834]), (8119, [913, 834, 921]), (8124, [913, 921]),
  (8126, [921]), (8130, [8138, 921]), (8131, [919, 921]), (8132, [905, 921]),
  (8134, [919, 834]), (8135, [919, 834, 921]), (8140, [919, 921]), (8146, [921, 776, 768]),
  (8147, [921, 776, 769]), (8150, [921, 834]), (8151, [921, 776, 834]),
  (8162, [933, 776, 768]), (8163, [933, 776, 769]), (8164, [929, 787]), (8166, [933, 834]),
  (8167, [933, 776, 834]), (8178, [8186, 921]), (8179, [937, 921]), (8180, [911, 921]),
  (8182, [937, 834]), (8183, [937, 834, 921]), (8188, [937, 921]), (64256, [70, 70]),
  (64257, [70, 73]), (64258, [70, 76]), (64259, [70, 70, 73]), (64260, [70, 70, 76]),
  (64261, [83, 84]), (64262, [83, 84]), (64275, [1348, 1350]), (64276, [1348, 1333]),
  (64277, [1348, 1339]), (64278, [1358, 1350]), (64279, [1348, 1341])]

/-- Characters with a small form that does not map back: its code points. -/
def lowered : List (Nat × List Nat) := [
  (304, [105, 775]), (453, [454]), (456, [457]), (459, [460]), (498, [499]), (1012, [952]),
  (7838, [223]), (8072, [8064]), (8073, [8065]), (8074, [8066]), (8075, [8067]),
  (8076, [8068]), (8077, [8069]), (8078, [8070]), (8079, [8071]), (8088, [8080]),
  (8089, [8081]), (8090, [8082]), (8091, [8083]), (8092, [8084]), (8093, [8085]),
  (8094, [8086]), (8095, [8087]), (8104, [8096]), (8105, [8097]), (8106, [8098]),
  (8107, [8099]), (8108, [8100]), (8109, [8101]), (8110, [8102]), (8111, [8103]),
  (8124, [8115]), (8140, [8131]), (8188, [8179]), (8486, [969]), (8490, [107]), (8491, [229])]

/-- Code points that do not end a word: marks, modifiers, quotes within words. -/
def ignorable : List (Nat × Nat) := [
  (39, 39), (46, 46), (58, 58), (94, 94), (96, 96), (168, 168), (173, 173), (175, 175),
  (180, 180), (183, 184), (688, 879), (884, 885), (890, 890), (900, 901), (903, 903),
  (1155, 1161), (1369, 1369), (1375, 1375), (1425, 1469), (1471, 1471), (1473, 1474),
  (1476, 1477), (1479, 1479), (1524, 1524), (1536, 1541), (1552, 1562), (1564, 1564),
  (1600, 1600), (1611, 1631), (1648, 1648), (1750, 1757), (1759, 1768), (1770, 1773),
  (1807, 1807), (1809, 1809), (1840, 1866), (1958, 1968), (2027, 2037), (2042, 2042),
  (2045, 2045), (2070, 2093), (2137, 2139), (2184, 2184), (2192, 2193), (2199, 2207),
  (2249, 2306), (2362, 2362), (2364, 2364), (2369, 2376), (2381, 2381), (2385, 2391),
  (2402, 2403), (2417, 2417), (2433, 2433), (2492, 2492), (2497, 2500), (2509, 2509),
  (2530, 2531), (2558, 2558), (2561, 2562), (2620, 2620), (2625, 2626), (2631, 2632),
  (2635, 2637), (2641, 2641), (2672, 2673), (2677, 2677), (2689, 2690), (2748, 2748),
  (2753, 2757), (2759, 2760), (2765, 2765), (2786, 2787), (2810, 2815), (2817, 2817),
  (2876, 2876), (2879, 2879), (2881, 2884), (2893, 2893), (2901, 2902), (2914, 2915),
  (2946, 2946), (3008, 3008), (3021, 3021), (3072, 3072), (3076, 3076), (3132, 3132),
  (3134, 3136), (3142, 3144), (3146, 3149), (3157, 3158), (3170, 3171), (3201, 3201),
  (3260, 3260), (3263, 3263), (3270, 3270), (3276, 3277), (3298, 3299), (3328, 3329),
  (3387, 3388), (3393, 3396), (3405, 3405), (3426, 3427), (3457, 3457), (3530, 3530),
  (3538, 3540), (3542, 3542), (3633, 3633), (3636, 3642), (3654, 3662), (3761, 3761),
  (3764, 3772), (3782, 3782), (3784, 3790), (3864, 3865), (3893, 3893), (3895, 3895),
  (3897, 3897), (3953, 3966), (3968, 3972), (3974, 3975), (3981, 3991), (3993, 4028),
  (4038, 4038), (4141, 4144), (4146, 4151), (4153, 4154), (4157, 4158), (4184, 4185),
  (4190, 4192), (4209, 4212), (4226, 4226), (4229, 4230), (4237, 4237), (4253, 4253),
  (4348, 4348), (4957, 4959), (5906, 5908), (5938, 5939), (5970, 5971), (6002, 6003),
  (6068, 6069), (6071, 6077), (6086, 6086), (6089, 6099), (6103, 6103), (6109, 6109),
  (6155, 6159), (6211, 6211), (6277, 6278), (6313, 6313), (6432, 6434), (6439, 6440),
  (6450, 6450), (6457, 6459), (6679, 6680), (6683, 6683), (6742, 6742), (6744, 6750),
  (6752, 6752), (6754, 6754), (6757, 6764), (6771, 6780), (6783, 6783), (6823, 6823),
  (6832, 6877), (6880, 6891), (6912, 6915), (6964, 6964), (6966, 6970), (6972, 6972),
  (6978, 6978), (7019, 7027), (7040, 7041), (7074, 7077), (7080, 7081), (7083, 7085),
  (7142, 7142), (7144, 7145), (7149, 7149), (7151, 7153), (7212, 7219), (7222, 7223),
  (7288, 7293), (7376, 7378), (7380, 7392), (7394, 7400), (7405, 7405), (7412, 7412),
  (7416, 7417), (7468, 7530), (7544, 7544), (7579, 7679), (8125, 8125), (8127, 8129),
  (8141, 8143), (8157, 8159), (8173, 8175), (8189, 8190), (8203, 8207), (8216, 8217),
  (8228, 8228), (8231, 8231), (8234, 8238), (8288, 8292), (8294, 8303), (8305, 8305),
  (8319, 8319), (8336, 8348), (8400, 8432), (11388, 11389), (11503, 11505), (11631, 11631),
  (11647, 11647), (11744, 11775), (11823, 11823), (12293, 12293), (12330, 12333), (12337, 12341),
  (12347, 12347), (12441, 12446), (12540, 12542), (40981, 40981), (42232, 42237), (42508, 42508),
  (42607, 42610), (42612, 42621), (42623, 42623), (42652, 42655), (42736, 42737), (42752, 42785),
  (42864, 42864), (42888, 42890), (42993, 42996), (43000, 43001), (43010, 43010), (43014, 43014),
  (43019, 43019), (43045, 43046), (43052, 43052), (43204, 43205), (43232, 43249), (43263, 43263),
  (43302, 43309), (43335, 43345), (43392, 43394), (43443, 43443), (43446, 43449), (43452, 43453),
  (43471, 43471), (43493, 43494), (43561, 43566), (43569, 43570), (43573, 43574), (43587, 43587),
  (43596, 43596), (43632, 43632), (43644, 43644), (43696, 43696), (43698, 43700), (43703, 43704),
  (43710, 43711), (43713, 43713), (43741, 43741), (43756, 43757), (43763, 43764), (43766, 43766),
  (43867, 43871), (43881, 43883), (44005, 44005), (44008, 44008), (44013, 44013), (64286, 64286),
  (64434, 64450), (65024, 65039), (65043, 65043), (65056, 65071), (65106, 65106), (65109, 65109),
  (65279, 65279), (65287, 65287), (65294, 65294), (65306, 65306), (65342, 65342), (65344, 65344),
  (65392, 65392), (65438, 65439), (65507, 65507), (65529, 65531), (66045, 66045), (66272, 66272),
  (66422, 66426), (67456, 67461), (67463, 67504), (67506, 67514), (68097, 68099), (68101, 68102),
  (68108, 68111), (68152, 68154), (68159, 68159), (68325, 68326), (68900, 68903), (68942, 68942),
  (68969, 68973), (68975, 68975), (69291, 69292), (69317, 69317), (69370, 69375), (69446, 69456),
  (69506, 69509), (69633, 69633), (69688, 69702), (69744, 69744), (69747, 69748), (69759, 69761),
  (69811, 69814), (69817, 69818), (69821, 69821), (69826, 69826), (69837, 69837), (69888, 69890),
  (69927, 69931), (69933, 69940), (70003, 70003), (70016, 70017), (70070, 70078), (70089, 70092),
  (70095, 70095), (70191, 70193), (70196, 70196), (70198, 70199), (70206, 70206), (70209, 70209),
  (70367, 70367), (70371, 70378), (70400, 70401), (70459, 70460), (70464, 70464), (70502, 70508),
  (70512, 70516), (70587, 70592), (70606, 70606), (70608, 70608), (70610, 70610), (70625, 70626),
  (70712, 70719), (70722, 70724), (70726, 70726), (70750, 70750), (70835, 70840), (70842, 70842),
  (70847, 70848), (70850, 70851), (71090, 71093), (71100, 71101), (71103, 71104), (71132, 71133),
  (71219, 71226), (71229, 71229), (71231, 71232), (71339, 71339), (71341, 71341), (71344, 71349),
  (71351, 71351), (71453, 71453), (71455, 71455), (71458, 71461), (71463, 71467), (71727, 71735),
  (71737, 71738), (71995, 71996), (71998, 71998), (72003, 72003), (72148, 72151), (72154, 72155),
  (72160, 72160), (72193, 72202), (72243, 72248), (72251, 72254), (72263, 72263), (72273, 72278),
  (72281, 72283), (72330, 72342), (72344, 72345), (72544, 72544), (72546, 72548), (72550, 72550),
  (72752, 72758), (72760, 72765), (72767, 72767), (72850, 72871), (72874, 72880), (72882, 72883),
  (72885, 72886), (73009, 73014), (73018, 73018), (73020, 73021), (73023, 73029), (73031, 73031),
  (73104, 73105), (73109, 73109), (73111, 73111), (73177, 73177), (73459, 73460), (73472, 73473),
  (73526, 73530), (73536, 73536), (73538, 73538), (73562, 73562), (78896, 78912), (78919, 78933),
  (90398, 90409), (90413, 90415), (92912, 92916), (92976, 92982), (92992, 92995), (93504, 93506),
  (93547, 93548), (94031, 94031), (94095, 94111), (94176, 94177), (94179, 94180), (94194, 94195),
  (110576, 110579), (110581, 110587), (110589, 110590), (113821, 113822), (113824, 113827),
  (118528, 118573), (118576, 118598), (119143, 119145), (119155, 119170), (119173, 119179),
  (119210, 119213), (119362, 119364), (121344, 121398), (121403, 121452), (121461, 121461),
  (121476, 121476), (121499, 121503), (121505, 121519), (122880, 122886), (122888, 122904),
  (122907, 122913), (122915, 122916), (122918, 122922), (122928, 122989), (123023, 123023),
  (123184, 123197), (123566, 123566), (123628, 123631), (124139, 124143), (124398, 124399),
  (124643, 124643), (124646, 124646), (124654, 124655), (124661, 124661), (124671, 124671),
  (125136, 125142), (125252, 125259), (127995, 127999), (917505, 917505), (917536, 917631),
  (917760, 917999)]

/-- Code points of letters with case, those in `ignorable` left out. -/
def cased : List (Nat × Nat) := [
  (65, 90), (97, 122), (170, 170), (181, 181), (186, 186), (192, 214), (216, 246), (248, 442),
  (444, 447), (452, 659), (661, 687), (880, 883), (886, 887), (891, 893), (895, 895), (902, 902),
  (904, 906), (908, 908), (910, 929), (931, 1013), (1015, 1153), (1162, 1327), (1329, 1366),
  (1376, 1416), (4256, 4293), (4295, 4295), (4301, 4301), (4304, 4346), (4349, 4351),
  (5024, 5109), (5112, 5117), (7296, 7306), (7312, 7354), (7357, 7359), (7424, 7467),
  (7531, 7543), (7545, 7578), (7680, 7957), (7960, 7965), (7968, 8005), (8008, 8013),
  (8016, 8023), (8025, 8025), (8027, 8027), (8029, 8029), (8031, 8061), (8064, 8116),
  (8118, 8124), (8126, 8126), (8130, 8132), (8134, 8140), (8144, 8147), (8150, 8155),
  (8160, 8172), (8178, 8180), (8182, 8188), (8450, 8450), (8455, 8455), (8458, 8467),
  (8469, 8469), (8473, 8477), (8484, 8484), (8486, 8486), (8488, 8488), (8490, 8493),
  (8495, 8500), (8505, 8505), (8508, 8511), (8517, 8521), (8526, 8526), (8544, 8575),
  (8579, 8580), (9398, 9449), (11264, 11387), (11390, 11492), (11499, 11502), (11506, 11507),
  (11520, 11557), (11559, 11559), (11565, 11565), (42560, 42605), (42624, 42651), (42786, 42863),
  (42865, 42887), (42891, 42894), (42896, 42972), (42997, 42998), (43002, 43002), (43824, 43866),
  (43872, 43880), (43888, 43967), (64256, 64262), (64275, 64279), (65313, 65338), (65345, 65370),
  (66560, 66639), (66736, 66771), (66776, 66811), (66928, 66938), (66940, 66954), (66956, 66962),
  (66964, 66965), (66967, 66977), (66979, 66993), (66995, 67001), (67003, 67004), (68736, 68786),
  (68800, 68850), (68944, 68965), (68976, 68997), (71840, 71903), (93760, 93823), (93856, 93880),
  (93883, 93907), (119808, 119892), (119894, 119964), (119966, 119967), (119970, 119970),
  (119973, 119974), (119977, 119980), (119982, 119993), (119995, 119995), (119997, 120003),
  (120005, 120069), (120071, 120074), (120077, 120084), (120086, 120092), (120094, 120121),
  (120123, 120126), (120128, 120132), (120134, 120134), (120138, 120144), (120146, 120485),
  (120488, 120512), (120514, 120538), (120540, 120570), (120572, 120596), (120598, 120628),
  (120630, 120654), (120656, 120686), (120688, 120712), (120714, 120744), (120746, 120770),
  (120772, 120779), (122624, 122633), (122635, 122654), (122661, 122666), (125184, 125251),
  (127280, 127305), (127312, 127337), (127344, 127369)]

/-- The first character that `ignorable` does not hold is a letter with case. -/
def startsCased (cs : List Char) : Bool :=
  match cs.dropWhile (within ignorable) with
  | [] => false
  | c :: _ => within cased c
where
  within (ranges : List (Nat × Nat)) (c : Char) : Bool :=
    ranges.any fun r => r.1 ≤ c.toNat && c.toNat ≤ r.2

/-- A word ends between `before`, its nearest character first, and `after`. -/
def endsWord (before after : List Char) : Bool :=
  startsCased before && !startsCased after

/-- The code points of one character in capitals; some letters take up to three. -/
def upper (n : Nat) : List Nat :=
  match raised.lookup n, blocks.find? (fun b => within b.small b n) with
  | some us, _ => us
  | none, some b => [b.capital + (n - b.small)]
  | none, none => [n]
where
  within (first : Nat) (b : Block) (n : Nat) : Bool :=
    first ≤ n && n < first + b.count * b.step && (n - first) % b.step = 0

/-- The code points of one character in small letters. -/
def lower (n : Nat) : List Nat :=
  match lowered.lookup n, blocks.find? (fun b => upper.within b.capital b n) with
  | some ls, _ => ls
  | none, some b => [b.small + (n - b.capital)]
  | none, none => [n]

/-- The code points of a text in capitals. -/
def upperText (cs : List Char) : List Nat :=
  cs.flatMap (upper ·.toNat)

/-- The code points of a text in small letters. A capital sigma at the end of a word becomes ς;
`before` is what precedes the rest, nearest character first. -/
def lowerText (before : List Char) : List Char → List Nat
  | [] => []
  | c :: after =>
    (if c = 'Σ' && endsWord before after then ['ς'.toNat] else lower c.toNat) ++
      lowerText (c :: before) after

end PixelScript.Text.Casing
