import ModuleGraph.Text.PropertyTable

/-!
# Tables of combining characters

Combining classes, and the pairs of characters that composed characters stand for.
-/

namespace ModuleGraph.Text

/-- Combining classes: each row has the letter `k` and the number of the class. -/
def combiningClasses : PropertyTable :=
  .ofText 0 "
    300k0 15ke6 1ke8 4kdc 1ke8 1kd8 5kdc 2kca 4kdc 2kca bkdc 5k1 4kdc 8ke6 1kf0 1ke6 3kdc 3ke6
    2kdc 1k0 3ke6 4kdc 1ke6 1ke8 2kdc 1ke6 1ke9 2kea 1ke9 2kea 1ke9 dke6 113k0 5ke6 109k0 1kdc
    4ke6 1kdc 3ke6 1kde 1kdc 6ke6 6kdc 2ke6 1kdc 2ke6 1kde 1ke4 1ke6 1ka 1kb 1kc 1kd 1ke 1kf 1k10
    1k11 1k12 2k13 1k14 1k15 1k16 1k0 1k17 1k0 1k18 1k19 1k0 1ke6 1kdc 1k0 1k12 48k0 8ke6 1k1e
    1k1f 1k20 30k0 1k1b 1k1c 1k1d 1k1e 1k1f 1k20 1k21 1k22 2ke6 2kdc 5ke6 1kdc 2ke6 1kdc 10k0 1k23
    65k0 7ke6 2k0 4ke6 1kdc 1ke6 2k0 2ke6 1k0 1kdc 2ke6 1kdc 23k0 1k24 1ek0 1ke6 1kdc 2ke6 1kdc
    2ke6 3kdc 1ke6 2kdc 1ke6 1kdc 3ke6 1kdc 1ke6 1kdc 1ke6 1kdc 1ke6 1kdc 2ke6 a0k0 7ke6 1kdc 1ke6
    9k0 1kdc 18k0 4ke6 1k0 9ke6 1k0 3ke6 1k0 5ke6 2bk0 3kdc 3bk0 2ke6 3kdc 4ke6 2ak0 5ke6 5kdc
    eke6 1k0 1kdc 2ke6 1kdc 2ke6 1kdc 3ke6 3kdc 1k1b 1k1c 1k1d 3ke6 1kdc 2ke6 2kdc 5ke6 3ck0 1k7
    10k0 1k9 3k0 1ke6 1kdc 2ke6 67k0 1k7 10k0 1k9 30k0 1ke6 3dk0 1k7 10k0 1k9 6ek0 1k7 10k0 1k9
    6ek0 1k7 10k0 1k9 7fk0 1k9 6ek0 1k7 10k0 1k9 7k0 1k54 1k5b 65k0 1k7 10k0 1k9 6dk0 2k9 10k0 1k9
    7ck0 1k9 6dk0 2k67 1k9 dk0 4k6b 6ck0 2k76 1k9 dk0 4k7a 4ck0 2kdc 1bk0 1kdc 1k0 1kdc 1k0 1kd8
    37k0 1k81 1k82 1k0 1k84 5k0 4k82 2k0 1k82 1k0 2ke6 1k9 1k0 2ke6 3ek0 1kdc 70k0 1k7 1k0 2k9
    52k0 1kdc 2cfk0 3ke6 3b4k0 2k9 1ek0 1k9 9dk0 1k9 ak0 1ke6 cbk0 1ke4 8fk0 1kde 1ke6 1kdc dbk0
    1ke6 1kdc 47k0 1k9 14k0 8ke6 2k0 1kdc 30k0 5ke6 6kdc 2ke6 1kdc 1k0 2kdc 2ke6 2kdc 5ke6 1kdc
    12ke6 1kdc 2k0 6ke6 1kdc 4ke6 1kea 48k0 1k7 fk0 1k9 26k0 1ke6 1kdc 7ke6 36k0 2k9 3ak0 1k7 bk0
    2k9 43k0 1k7 98k0 3ke6 1k0 1k1 5kdc 2ke6 4kdc 1ke6 1k0 7k1 4k0 1kdc 6k0 1ke6 3k0 2ke6 c6k0
    2ke6 1kdc 7ke6 1kdc 2ke6 1kea 1kd6 1kdc 1kca 25ke6 1ke8 2ke4 1kdc 1kda 1ke6 1ke9 1kdc 1ke6
    1kdc 2d0k0 2ke6 2k1 4ke6 3k1 2ke6 4k0 1ke6 3k0 2k1 1ke6 1kdc 1ke6 2k1 4kdc 1ke6 bfek0 3ke6
    8dk0 1k9 60k0 20ke6 22ak0 1kda 1ke4 1ke8 1kde 2ke0 69k0 2k8 75d4k0 1ke6 4k0 ake6 20k0 2ke6
    50k0 2ke6 114k0 1k9 25k0 1k9 97k0 1k9 1bk0 12ke6 39k0 3kdc 25k0 1k9 5fk0 1k7 ck0 1k9 efk0 1ke6
    1k0 2ke6 1kdc 2k0 2ke6 5k0 2ke6 1k0 1ke6 34k0 1k9 f6k0 1k9 4f30k0 1k1a 301k0 7ke6 7kdc 2ke6
    3cdk0 1kdc e2k0 1kdc 95k0 5ke6 692k0 1kdc 1k0 1ke6 28k0 1ke6 1k1 1kdc 4k0 1k9 a5k0 1ke6 1kdc
    23dk0 4ke6 41k0 5ke6 13dk0 2ke6 4dk0 2kdc 1k0 3kdc 46k0 2kdc 3ke6 1kdc 1ke6 4kdc 31k0 1ke6
    1kdc 1ke6 1kdc c0k0 1k9 29k0 1k9 ek0 1k9 39k0 1k9 1k7 45k0 3ke6 30k0 2k9 3ek0 1k7 4ck0 1k9 9k0
    1k7 6ak0 1k9 1k7 b2k0 1k7 1k9 50k0 2k7 10k0 1k9 18k0 7ke6 3k0 5ke6 59k0 3k9 71k0 1k9 3k0 1k7
    17k0 1ke6 63k0 1k9 1k7 fbk0 1k9 1k7 7ek0 1k9 76k0 1k9 1k7 73k0 1k9 10dk0 1k9 1k7 102k0 2k9 4k0
    1k7 9ck0 1k9 53k0 1k9 12k0 1k9 51k0 1k9 1a5k0 1k9 102k0 1k7 1k0 2k9 51k0 1k9 1a9k0 2k9 41eck0
    1k9 9c0k0 5k1 3bk0 7ke6 4b9k0 2k6 4cack0 1k1 14c6k0 2kd8 3k1 3k0 1ke2 5kd8 8k0 8kdc 2k0 5ke6
    2kdc 1ek0 4ke6 94k0 3ke6 dbbk0 7ke6 1k0 11ke6 2k0 7ke6 1k0 2ke6 1k0 5ke6 64k0 1ke6 a0k0 7ke6
    177k0 1ke6 3dk0 4ke6 1fck0 2ke8 1kdc 1ke6 fek0 1ke6 1kdc f3k0 1ke6 2k0 1ke6 7k0 2ke6 5k0 1ke6
    1dak0 7kdc 6dk0 6ke6 1k7 f16b5k0"

/-- Composed characters: rows with the letter `r` hold the two characters that each stands for. Only
characters that can stand in domain names are listed. -/
def compositions : PropertyTable :=
  .ofText 0x80 "
    60v 1r61.300 1r61.301 1r61.302 1r61.303 1r61.308 1r61.30a 1v 1r63.327 1r65.300 1r65.301
    1r65.302 1r65.308 1r69.300 1r69.301 1r69.302 1r69.308 1v 1r6e.303 1r6f.300 1r6f.301 1r6f.302
    1r6f.303 1r6f.308 2v 1r75.300 1r75.301 1r75.302 1r75.308 1r79.301 1v 1r79.308 1v 1r61.304 1v
    1r61.306 1v 1r61.328 1v 1r63.301 1v 1r63.302 1v 1r63.307 1v 1r63.30c 1v 1r64.30c 3v 1r65.304
    1v 1r65.306 1v 1r65.307 1v 1r65.328 1v 1r65.30c 1v 1r67.302 1v 1r67.306 1v 1r67.307 1v
    1r67.327 1v 1r68.302 3v 1r69.303 1v 1r69.304 1v 1r69.306 1v 1r69.328 5v 1r6a.302 1v 1r6b.327
    2v 1r6c.301 1v 1r6c.327 1v 1r6c.30c 5v 1r6e.301 1v 1r6e.327 1v 1r6e.30c 4v 1r6f.304 1v
    1r6f.306 1v 1r6f.30b 3v 1r72.301 1v 1r72.327 1v 1r72.30c 1v 1r73.301 1v 1r73.302 1v 1r73.327
    1v 1r73.30c 1v 1r74.327 1v 1r74.30c 3v 1r75.303 1v 1r75.304 1v 1r75.306 1v 1r75.30a 1v
    1r75.30b 1v 1r75.328 1v 1r77.302 1v 1r79.302 2v 1r7a.301 1v 1r7a.307 1v 1r7a.30c 22v 1r6f.31b
    ev 1r75.31b 1dv 1r61.30c 1v 1r69.30c 1v 1r6f.30c 1v 1r75.30c 1v 1rfc.304 1v 1rfc.301 1v
    1rfc.30c 1v 1rfc.300 2v 1re4.304 1v 1r227.304 1v 1re6.304 3v 1r67.30c 1v 1r6b.30c 1v 1r6f.328
    1v 1r1eb.304 1v 1r292.30c 1r6a.30c 4v 1r67.301 3v 1r6e.300 1v 1re5.301 1v 1re6.301 1v 1rf8.301
    1v 1r61.30f 1v 1r61.311 1v 1r65.30f 1v 1r65.311 1v 1r69.30f 1v 1r69.311 1v 1r6f.30f 1v
    1r6f.311 1v 1r72.30f 1v 1r72.311 1v 1r75.30f 1v 1r75.311 1v 1r73.326 1v 1r74.326 3v 1r68.30c
    7v 1r61.307 1v 1r65.327 1v 1rf6.304 1v 1rf5.304 1v 1r6f.307 1v 1r22f.304 1v 1r79.304 15cv
    1r3ca.301 1bv 1r3b1.301 1r3b5.301 1r3b7.301 1r3b9.301 1r3cb.301 19v 1r3b9.308 1r3c5.308
    1r3bf.301 1r3c5.301 1r3c9.301 6av 1r438.306 16v 1r435.300 1r435.308 1v 1r433.301 3v 1r456.308
    4v 1r43a.301 1r438.300 1r443.306 18v 1r475.30f 4av 1r436.306 ev 1r430.306 1v 1r430.308 3v
    1r435.306 3v 1r4d9.308 1v 1r436.308 1v 1r437.308 3v 1r438.304 1v 1r438.308 1v 1r43e.308 3v
    1r4e9.308 1v 1r44d.308 1v 1r443.304 1v 1r443.308 1v 1r443.30b 1v 1r447.308 3v 1r44b.308 128v
    1r627.653 1r627.654 1r648.654 1r627.655 1r64a.654 99v 1r6d5.654 1v 1r6c1.654 10v 1r6d2.654
    255v 1r928.93c 7v 1r930.93c 2v 1r933.93c 96v 1r9c7.9be 1r9c7.9d7 17bv 1rb47.b56 2v 1rb47.b3e
    1rb47.b57 47v 1rb92.bd7 35v 1rbc6.bbe 1rbc7.bbe 1rbc6.bd7 7bv 1rc46.c56 77v 1rcbf.cd5 6v
    1rcc6.cd5 1rcc6.cd6 1v 1rcc6.cc2 1rcca.cd5 7ev 1rd46.d3e 1rd47.d3e 1rd46.d57 8dv 1rdd9.dca 1v
    1rdd9.dcf 1rddc.dca 1rdd9.ddf 247v 1r1025.102e adfv 1r1b05.1b35 1v 1r1b07.1b35 1v 1r1b09.1b35
    1v 1r1b0b.1b35 1v 1r1b0d.1b35 3v 1r1b11.1b35 28v 1r1b3a.1b35 1v 1r1b3c.1b35 2v 1r1b3e.1b35
    1r1b3f.1b35 1v 1r1b42.1b35 2bdv 1r61.325 1v 1r62.307 1v 1r62.323 1v 1r62.331 1v 1re7.301 1v
    1r64.307 1v 1r64.323 1v 1r64.331 1v 1r64.327 1v 1r64.32d 1v 1r113.300 1v 1r113.301 1v 1r65.32d
    1v 1r65.330 1v 1r229.306 1v 1r66.307 1v 1r67.304 1v 1r68.307 1v 1r68.323 1v 1r68.308 1v
    1r68.327 1v 1r68.32e 1v 1r69.330 1v 1ref.301 1v 1r6b.301 1v 1r6b.323 1v 1r6b.331 1v 1r6c.323
    1v 1r1e37.304 1v 1r6c.331 1v 1r6c.32d 1v 1r6d.301 1v 1r6d.307 1v 1r6d.323 1v 1r6e.307 1v
    1r6e.323 1v 1r6e.331 1v 1r6e.32d 1v 1rf5.301 1v 1rf5.308 1v 1r14d.300 1v 1r14d.301 1v 1r70.301
    1v 1r70.307 1v 1r72.307 1v 1r72.323 1v 1r1e5b.304 1v 1r72.331 1v 1r73.307 1v 1r73.323 1v
    1r15b.307 1v 1r161.307 1v 1r1e63.307 1v 1r74.307 1v 1r74.323 1v 1r74.331 1v 1r74.32d 1v
    1r75.324 1v 1r75.330 1v 1r75.32d 1v 1r169.301 1v 1r16b.308 1v 1r76.303 1v 1r76.323 1v 1r77.300
    1v 1r77.301 1v 1r77.308 1v 1r77.307 1v 1r77.323 1v 1r78.307 1v 1r78.308 1v 1r79.307 1v
    1r7a.302 1v 1r7a.323 1v 1r7a.331 1r68.331 1r74.308 1r77.30a 1r79.30a 7v 1r61.323 1v 1r61.309
    1v 1re2.301 1v 1re2.300 1v 1re2.309 1v 1re2.303 1v 1r1ea1.302 1v 1r103.301 1v 1r103.300 1v
    1r103.309 1v 1r103.303 1v 1r1ea1.306 1v 1r65.323 1v 1r65.309 1v 1r65.303 1v 1rea.301 1v
    1rea.300 1v 1rea.309 1v 1rea.303 1v 1r1eb9.302 1v 1r69.309 1v 1r69.323 1v 1r6f.323 1v 1r6f.309
    1v 1rf4.301 1v 1rf4.300 1v 1rf4.309 1v 1rf4.303 1v 1r1ecd.302 1v 1r1a1.301 1v 1r1a1.300 1v
    1r1a1.309 1v 1r1a1.303 1v 1r1a1.323 1v 1r75.323 1v 1r75.309 1v 1r1b0.301 1v 1r1b0.300 1v
    1r1b0.309 1v 1r1b0.303 1v 1r1b0.323 1v 1r79.300 1v 1r79.323 1v 1r79.309 1v 1r79.303 6v
    1r3b1.313 1r3b1.314 1r1f00.300 1r1f01.300 1r1f00.301 1r1f01.301 1r1f00.342 1r1f01.342 8v
    1r3b5.313 1r3b5.314 1r1f10.300 1r1f11.300 1r1f10.301 1r1f11.301 av 1r3b7.313 1r3b7.314
    1r1f20.300 1r1f21.300 1r1f20.301 1r1f21.301 1r1f20.342 1r1f21.342 8v 1r3b9.313 1r3b9.314
    1r1f30.300 1r1f31.300 1r1f30.301 1r1f31.301 1r1f30.342 1r1f31.342 8v 1r3bf.313 1r3bf.314
    1r1f40.300 1r1f41.300 1r1f40.301 1r1f41.301 av 1r3c5.313 1r3c5.314 1r1f50.300 1r1f51.300
    1r1f50.301 1r1f51.301 1r1f50.342 1r1f51.342 8v 1r3c9.313 1r3c9.314 1r1f60.300 1r1f61.300
    1r1f60.301 1r1f61.301 1r1f60.342 1r1f61.342 8v 1r3b1.300 1v 1r3b5.300 1v 1r3b7.300 1v
    1r3b9.300 1v 1r3bf.300 1v 1r3c5.300 1v 1r3c9.300 33v 1r3b1.306 1r3b1.304 4v 1r3b1.342 fv
    1r3b7.342 9v 1r3b9.306 1r3b9.304 1r3ca.300 3v 1r3b9.342 1r3ca.342 8v 1r3c5.306 1r3c5.304
    1r3cb.300 1v 1r3c1.313 1r3c1.314 1r3c5.342 1r3cb.342 ev 1r3c9.342 1a3v 1r2190.338 1r2192.338
    12v 1r2194.338 1ev 1r21d0.338 1r21d4.338 1r21d2.338 34v 1r2203.338 4v 1r2208.338 2v 1r220b.338
    17v 1r2223.338 1v 1r2225.338 1av 1r223c.338 2v 1r2243.338 2v 1r2245.338 1v 1r2248.338 16v
    1r3d.338 1v 1r2261.338 av 1r224d.338 1r3c.338 1r3e.338 1r2264.338 1r2265.338 2v 1r2272.338
    1r2273.338 2v 1r2276.338 1r2277.338 6v 1r227a.338 1r227b.338 2v 1r2282.338 1r2283.338 2v
    1r2286.338 1r2287.338 22v 1r22a2.338 1r22a8.338 1r22a9.338 1r22ab.338 30v 1r227c.338
    1r227d.338 1r2291.338 1r2292.338 6v 1r22b2.338 1r22b3.338 1r22b4.338 1r22b5.338 d5ev
    1r304b.3099 1v 1r304d.3099 1v 1r304f.3099 1v 1r3051.3099 1v 1r3053.3099 1v 1r3055.3099 1v
    1r3057.3099 1v 1r3059.3099 1v 1r305b.3099 1v 1r305d.3099 1v 1r305f.3099 1v 1r3061.3099 2v
    1r3064.3099 1v 1r3066.3099 1v 1r3068.3099 6v 1r306f.3099 1r306f.309a 1v 1r3072.3099
    1r3072.309a 1v 1r3075.3099 1r3075.309a 1v 1r3078.3099 1r3078.309a 1v 1r307b.3099 1r307b.309a
    16v 1r3046.3099 9v 1r309d.3099 dv 1r30ab.3099 1v 1r30ad.3099 1v 1r30af.3099 1v 1r30b1.3099 1v
    1r30b3.3099 1v 1r30b5.3099 1v 1r30b7.3099 1v 1r30b9.3099 1v 1r30bb.3099 1v 1r30bd.3099 1v
    1r30bf.3099 1v 1r30c1.3099 2v 1r30c4.3099 1v 1r30c6.3099 1v 1r30c8.3099 6v 1r30cf.3099
    1r30cf.309a 1v 1r30d2.3099 1r30d2.309a 1v 1r30d5.3099 1r30d5.309a 1v 1r30d8.3099 1r30d8.309a
    1v 1r30db.3099 1r30db.309a 16v 1r30a6.3099 2v 1r30ef.3099 1r30f0.3099 1r30f1.3099 1r30f2.3099
    3v 1r30fd.3099 d4cav 1r105d2.307 1av 1r105da.307 ab5v 1r11099.110ba 1v 1r1109b.110ba ev
    1r110a5.110ba 82v 1r11131.11127 1r11132.11127 21bv 1r11347.1133e 1r11347.11357 36v
    1r11382.113c9 1v 1r11384.113bb 8v 1r1138b.113c2 2v 1r11390.113c9 33v 1r113c2.113c2 1v
    1r113c2.113b8 1r113c2.113c9 f2v 1r114b9.114ba 1r114b9.114b0 1v 1r114b9.114bd fbv 1r115b8.115af
    1r115b9.115af 37cv 1r11935.11930 47e8v 1r1611e.1611e 1r1611e.16129 1r1611e.1611f 1r16129.1611f
    1r1611e.16120 1r16121.1611f 1r16122.1611f 1r16121.16120 c3fv 1r16d67.16d67 1r16d63.16d67
    1r16d69.16d67 f9295v"

end ModuleGraph.Text
